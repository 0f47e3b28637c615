/-
# Proofs.Store.Thinning — a graph in which some edges were never added

Choose some stamps to drop. Next to a graph that gives them out stands one that never adds their edges:
it has the same elements, and of the links those with other stamps, renumbered so that the numbers close
up (`Thinned`).

What one store does, the other can follow. An edge with a dropped stamp is not added at all
(`Thinned.link_dropped`); every other step has its like (`Thinned.step`), provided that it takes no
dropped edge away. That proviso matters where the latest of equal edges goes: a dropped edge that is the
latest in one store is none in the other, which would lose an earlier one instead.
-/
import LanguageGraph.Proofs.Stamp
import LanguageGraph.Proofs.Store.Later

namespace LanguageGraph

set_option autoImplicit false

/-- The links that are not dropped, with the stamps that they then have. -/
def thinned (dropped : List EdgeStamp) (links : List (ElementId × EdgeStamp)) :
    List (ElementId × EdgeStamp) :=
  (links.filter fun link => link.2 ∉ dropped).map fun link => (link.1, link.2.among dropped)

section Links

variable {dropped : List EdgeStamp} {links : List (ElementId × EdgeStamp)}

theorem thinned_append (first second : List (ElementId × EdgeStamp)) :
    thinned dropped (first ++ second) = thinned dropped first ++ thinned dropped second := by
  rw [thinned, List.filter_append, List.map_append]
  rfl

theorem thinned_cons_of_kept {link : ElementId × EdgeStamp} (kept : link.2 ∉ dropped) :
    thinned dropped (link :: links) = (link.1, link.2.among dropped) :: thinned dropped links := by
  have keeps : decide (link.2 ∉ dropped) = true := decide_eq_true kept
  rw [thinned, List.filter_cons, if_pos keeps]
  rfl

theorem thinned_singleton_of_dropped {link : ElementId × EdgeStamp} (drop : link.2 ∈ dropped) :
    thinned dropped [link] = [] := by
  have drops : ¬ decide (link.2 ∉ dropped) = true := fun kept => of_decide_eq_true kept drop
  rw [thinned, List.filter_cons, if_neg drops]
  rfl

theorem mem_thinned_of_kept {link : ElementId × EdgeStamp} (there : link ∈ links)
    (kept : link.2 ∉ dropped) : (link.1, link.2.among dropped) ∈ thinned dropped links :=
  List.mem_map.2 ⟨link, List.mem_filter.2 ⟨there, decide_eq_true kept⟩, rfl⟩

/-- Destinations are among those before. -/
theorem map_fst_thinned_subset :
    (thinned dropped links).map Prod.fst ⊆ links.map Prod.fst := by
  rw [thinned, List.map_map]
  exact List.map_subset _ List.filter_sublist.subset

/-- Dropping links by destination and dropping links by stamp do not disturb each other. -/
theorem thinned_filter_fst (p : ElementId → Bool) :
    thinned dropped (links.filter fun link => p link.1) =
      (thinned dropped links).filter fun link => p link.1 := by
  simp only [thinned, List.filter_map, List.filter_filter, Function.comp_def, Bool.and_comm]

end Links

namespace Store

/-- One store is another in which the edges with some stamps were never added. -/
structure Thinned (dropped : List EdgeStamp) (full thin : Store) : Prop where
  places : thin.places = full.places
  root : thin.root = full.root
  links : ∀ id edgeType, thin.links id edgeType = thinned dropped (full.links id edgeType)
  nextStamp : thin.nextStamp = EdgeStamp.numberAmong dropped full.nextStamp

namespace Thinned

variable {dropped : List EdgeStamp} {full thin : Store}

theorem empty (dropped : List EdgeStamp) : Thinned dropped .empty .empty where
  places := rfl
  root := rfl
  links _ _ := rfl
  nextStamp := (Nat.count_zero _).symm

/-! ## What the two stores agree in -/

theorem contains (related : Thinned dropped full thin) (id : ElementId) :
    thin.contains id = full.contains id :=
  contains_of_places related.places id

theorem size (related : Thinned dropped full thin) : thin.size = full.size := by
  rw [← length_ids, ← length_ids, related.places]

theorem isEmpty (related : Thinned dropped full thin) : thin.isEmpty = full.isEmpty := by
  rw [isEmpty_eq_places, isEmpty_eq_places, related.places]

theorem childrenOf (related : Thinned dropped full thin) (placed : full.Placed)
    (placed' : thin.Placed) : thin.childrenOf = full.childrenOf := by
  funext container
  rw [placed.children, placed'.children, related.places]

theorem contents (related : Thinned dropped full thin) (placed : full.Placed)
    (placed' : thin.Placed) : thin.contents = full.contents := by
  have within : ∀ depth, thin.contentsWithin depth = full.contentsWithin depth := by
    intro depth
    induction depth with
    | zero => rfl
    | succ depth ih =>
        funext id
        rw [contentsWithin, contentsWithin, related.childrenOf placed placed', ih]
  funext id
  rw [Store.contents, Store.contents, related.size, within]

theorem checkAdd (related : Thinned dropped full thin) (placed : full.Placed)
    (placed' : thin.Placed) {element : Element} {container : Option ElementId}
    (checked : full.checkAdd element container = .ok ()) :
    thin.checkAdd element container = .ok () := by
  obtain ⟨absent, fits⟩ := checkAdd_eq_ok_iff.1 checked
  refine checkAdd_eq_ok_iff.2 ⟨by rwa [related.contains], fun containerId is => ?_⟩
  obtain ⟨parent, got, may⟩ := fits containerId is
  refine ⟨parent, ?_, may⟩
  rw [get?_eq_some_iff placed', related.places]
  exact (get?_eq_some_iff placed).1 got

/-- An edge of the thin store is an edge of the full one. -/
theorem edges_subset (related : Thinned dropped full thin) (linked : full.Linked)
    (linked' : thin.Linked) (id : ElementId) (edgeType : EdgeType) :
    thin.edges id edgeType ⊆ full.edges id edgeType := by
  rw [← linked.map_fst_links, ← linked'.map_fst_links, related.links]
  exact map_fst_thinned_subset

/-! ## One change in both -/

theorem insert (related : Thinned dropped full thin) (element : Element)
    (container : Option ElementId) :
    Thinned dropped (full.insert element container) (thin.insert element container) where
  places := by rw [places_insert, places_insert, related.places]
  root := by
    show (if element.isRoot && container.isNone && thin.root.isNone then some element.id
      else thin.root) = _
    rw [related.root]
    rfl
  links id edgeType := by rw [links_insert, links_insert, related.links]
  nextStamp := related.nextStamp

/-- An edge with a stamp that is not dropped is added in both. -/
theorem link_kept (related : Thinned dropped full thin) (linked : full.Linked)
    (linked' : thin.Linked) {source : ElementId} (there : full.contains source = true)
    (edgeType : EdgeType) (destination : ElementId)
    (kept : (⟨full.nextStamp⟩ : EdgeStamp) ∉ dropped) :
    Thinned dropped (full.link source edgeType destination)
      (thin.link source edgeType destination) where
  places := by rw [places_link, places_link, related.places]
  root := related.root
  links id edgeType' := by
    have there' : thin.contains source = true := by rwa [related.contains]
    rw [linked.links_link there, linked'.links_link there', thinned_append, related.links,
      related.nextStamp]
    congr 1
    split
    · exact (@thinned_cons_of_kept dropped [] (destination, ⟨full.nextStamp⟩) kept).symm
    · rfl
  nextStamp := by
    show thin.nextStamp + 1 = EdgeStamp.numberAmong dropped (full.nextStamp + 1)
    rw [EdgeStamp.numberAmong_succ_of_kept kept, related.nextStamp]

/-- An edge with a dropped stamp is added in the full store alone. -/
theorem link_dropped (related : Thinned dropped full thin) (linked : full.Linked)
    {source : ElementId} (there : full.contains source = true)
    (edgeType : EdgeType) (destination : ElementId)
    (drop : (⟨full.nextStamp⟩ : EdgeStamp) ∈ dropped) :
    Thinned dropped (full.link source edgeType destination) thin where
  places := by rw [places_link, related.places]
  root := related.root
  links id edgeType' := by
    rw [linked.links_link there, thinned_append, related.links]
    split
    · rw [thinned_singleton_of_dropped drop, List.append_nil]
    · rw [show thinned dropped [] = [] from rfl, List.append_nil]
  nextStamp := by
    show thin.nextStamp = EdgeStamp.numberAmong dropped (full.nextStamp + 1)
    rw [EdgeStamp.numberAmong_succ_of_dropped drop, related.nextStamp]

/-- A link that is not dropped is taken out of both, wherever it stands in either. -/
theorem unlinkAt (related : Thinned dropped full thin) (linked : full.Linked)
    (linked' : thin.Linked) {source : ElementId} {edgeType : EdgeType} {destination : ElementId}
    {stamp : EdgeStamp} {before after : List (ElementId × EdgeStamp)}
    (split : full.links source edgeType = before ++ (destination, stamp) :: after)
    (kept : stamp ∉ dropped) :
    Thinned dropped (full.unlinkAt source edgeType destination before.length)
      (thin.unlinkAt source edgeType destination (thinned dropped before).length) where
  places := by rw [places_unlinkAt, places_unlinkAt, related.places]
  root := related.root
  links id edgeType' := by
    rw [linked.links_unlinkAt, linked'.links_unlinkAt, related.links, related.links]
    split
    · rw [split, eraseIdx_split, thinned_append, thinned_append, thinned_cons_of_kept kept,
        eraseIdx_split]
    · rfl
  nextStamp := related.nextStamp

/-- Where a link that is not dropped stands in the full store, its like stands in the thin one. -/
theorem links_split (related : Thinned dropped full thin) {source : ElementId}
    {edgeType : EdgeType} {destination : ElementId} {stamp : EdgeStamp}
    {before after : List (ElementId × EdgeStamp)}
    (split : full.links source edgeType = before ++ (destination, stamp) :: after)
    (kept : stamp ∉ dropped) :
    thin.links source edgeType =
      thinned dropped before ++ (destination, stamp.among dropped) :: thinned dropped after := by
  rw [related.links, split, thinned_append, thinned_cons_of_kept kept]

theorem without (related : Thinned dropped full thin) (sound : full.Sound) (sound' : thin.Sound)
    {slot slot' : Slot} (member : slot ∈ full.slots) (member' : slot' ∈ thin.slots)
    (same : slot'.id = slot.id) :
    Thinned dropped (full.without slot) (thin.without slot') where
  places := by rw [sound.places_without member, sound'.places_without member', same, related.places]
  root := by
    show (if thin.root = some slot'.id then none else thin.root) = _
    rw [same, related.root]
    rfl
  links id edgeType := by
    rw [sound.links_without member, sound'.links_without member', same, related.links]
    split
    · rfl
    · exact (thinned_filter_fst fun destination => decide (destination ≠ slot.id)).symm
  nextStamp := related.nextStamp

theorem detachAll (related : Thinned dropped full thin) (sound : full.Sound) (sound' : thin.Sound)
    {ids : List ElementId} (sorted : full.ChildrenFirst ids) :
    Thinned dropped (Store.detachAll ids full).2 (Store.detachAll ids thin).2 := by
  induction ids generalizing full thin with
  | nil => exact related
  | cons id ids ih =>
      have sorted' : thin.ChildrenFirst (id :: ids) := by
        unfold ChildrenFirst
        rwa [related.childrenOf sound.toPlaced sound'.toPlaced]
      have there := related.contains id
      unfold Store.detachAll
      cases found : full.slot? id with
      | none =>
          have absent : full.contains id = false := by rw [Store.contains, found]; rfl
          rw [absent] at there
          rw [slot?_eq_none there]
          exact ih related sound sound' (sound.toPlaced.childrenFirst_skip absent sorted)
      | some slot =>
          rw [Store.contains, Store.contains, found] at there
          obtain ⟨slot', found'⟩ := Option.isSome_iff_exists.1 there
          rw [found']
          have member := mem_of_slot? found
          have member' := mem_of_slot? found'
          have same : slot'.id = slot.id := (id_of_slot? found').trans (id_of_slot? found).symm
          obtain rfl := id_of_slot? found
          exact ih (related.without sound sound' member member' same)
            (sound.without member sorted.childless)
            (sound'.without member' (same ▸ sorted'.childless))
            (sound.toPlaced.childrenFirst_without member sorted)

end Thinned

/-! ## Steps -/

/-- Every dropped edge that was added is still there. -/
def Keeps (store : Store) (dropped : List EdgeStamp) : Prop :=
  ∀ stamp ∈ dropped, stamp.number < store.nextStamp →
    ∃ id edgeType destination, (destination, stamp) ∈ store.links id edgeType

variable {dropped : List EdgeStamp} {store : Store}

theorem Later.keeps {earlier later : Store} (is_later : Later earlier later)
    (keeps : later.Keeps dropped) : earlier.Keeps dropped := by
  intro stamp drop old
  obtain ⟨id, edgeType, destination, there⟩ :=
    keeps stamp drop (Nat.lt_of_lt_of_le old is_later.nextStamp)
  exact ⟨id, edgeType, destination, is_later.links id edgeType _ there old⟩

/-- An edge that is taken out where dropped edges stay is none of them. -/
theorem Linked.kept_of_unlinkAt (linked : store.Linked) {source : ElementId} {edgeType : EdgeType}
    {destination : ElementId} {stamp : EdgeStamp} {index : Nat}
    (here : (store.links source edgeType)[index]? = some (destination, stamp))
    (keeps : (store.unlinkAt source edgeType destination index).Keeps dropped) :
    stamp ∉ dropped := by
  intro drop
  obtain ⟨id, edgeType', destination', there⟩ :=
    keeps stamp drop (linked.links_below (List.mem_of_getElem? here))
  rw [linked.links_unlinkAt_eq_filter here] at there
  exact of_decide_eq_true (List.mem_filter.1 there).2 rfl

/-- The latest edge to a destination, with its stamp. -/
theorem Linked.latest_link (linked : store.Linked) {source : ElementId} {edgeType : EdgeType}
    {destination : ElementId} {index : Nat}
    (found : lastIndexOf? destination (store.edges source edgeType) = some index) :
    ∃ before stamp after, store.links source edgeType = before ++ (destination, stamp) :: after ∧
      before.length = index ∧ destination ∉ after.map Prod.fst := by
  obtain ⟨before, after, whole, length, last⟩ := lastIndexOf?_split found
  rw [← linked.map_fst_links] at whole
  obtain ⟨earlier, rest, split, rfl, more⟩ := List.map_eq_append_iff.1 whole
  obtain ⟨⟨_, stamp⟩, later, rfl, rfl, rfl⟩ := List.map_eq_cons_iff.1 more
  rw [List.length_map] at length
  exact ⟨earlier, stamp, later, split, length, last⟩

end Store

def Step.among (dropped : List EdgeStamp) : Step → Step
  | .removeStamped source edgeType destination stamp =>
      .removeStamped source edgeType destination (stamp.among dropped)
  | step => step

namespace Store

variable {dropped : List EdgeStamp} {full thin : Store}

namespace Thinned

/-- The checks before removing an element pass in both. -/
theorem checkRemove (related : Thinned dropped full thin) (sound : full.Sound)
    (sound' : thin.Sound) {id : ElementId} {cascade : Bool}
    (checked : full.checkRemove id cascade = .ok ()) : thin.checkRemove id cascade = .ok () := by
  rw [checkRemove_eq_ok_iff] at checked ⊢
  rw [related.contains, related.childrenOf sound.toPlaced sound'.toPlaced]
  refine ⟨checked.1, checked.2.imp_right fun alone => ⟨alone.1, ?_⟩⟩
  rintro ⟨source, edgeType⟩ refers
  refine alone.2 (source, edgeType) ?_
  rw [← List.count_pos_iff, sound'.incoming, List.count_pos_iff] at refers
  rw [← List.count_pos_iff, sound.incoming, List.count_pos_iff]
  exact related.edges_subset sound.toLinked sound'.toLinked source edgeType refers

/-- **A step that gives out no dropped stamp and takes out no dropped edge has its like in the thin
store.** -/
theorem step (related : Thinned dropped full thin) (sound : full.Sound) (sound' : thin.Sound)
    {step : Step} {next : Store} (done : full.step step = .ok next) (keeps : next.Keeps dropped)
    (fresh : ∀ stamp ∈ dropped, full.nextStamp ≤ stamp.number → next.nextStamp ≤ stamp.number) :
    ∃ next', thin.step (step.among dropped) = .ok next' ∧ Thinned dropped next next' := by
  have linked := sound.toLinked
  have linked' := sound'.toLinked
  cases step with
  | add element container =>
      obtain ⟨checked, rfl⟩ := add_eq_ok_iff.1 done
      refine ⟨_, add_eq_ok_iff.2 ⟨?_, rfl⟩, related.insert element container⟩
      exact related.checkAdd sound.toPlaced sound'.toPlaced checked
  | addEdge source edgeType destination =>
      obtain ⟨checked, rfl⟩ := step_addEdge_eq_ok_iff.1 done
      have there := (checkEdge_eq_ok_iff.1 checked).1
      have kept : (⟨full.nextStamp⟩ : EdgeStamp) ∉ dropped := fun drop =>
        absurd (fresh _ drop (Nat.le_refl _)) (Nat.not_succ_le_self _)
      refine ⟨_, step_addEdge_eq_ok_iff.2 ⟨?_, rfl⟩,
        related.link_kept linked linked' there edgeType destination kept⟩
      rw [checkEdge_eq_ok_iff] at checked ⊢
      rwa [related.contains, related.contains]
  | removeEdge source edgeType destination =>
      obtain ⟨index, found, rfl⟩ := removeEdge_eq_ok_iff.1 done
      -- The latest edge is no dropped one, which would have to stay; so the thin store has it too, and
      -- none behind it.
      obtain ⟨before, stamp, after, split, rfl, last⟩ := linked.latest_link found
      have here : (full.links source edgeType)[before.length]? = some (destination, stamp) := by
        rw [split, getElem?_split]
      have kept := linked.kept_of_unlinkAt here keeps
      have found' : lastIndexOf? destination (thin.edges source edgeType) =
          some (thinned dropped before).length := by
        rw [← linked'.map_fst_links, related.links_split split kept, List.map_append,
          List.map_cons, lastIndexOf?_of_split fun later => last (map_fst_thinned_subset later),
          List.length_map]
      exact ⟨_, removeEdge_eq_ok_iff.2 ⟨_, found', rfl⟩, related.unlinkAt linked linked' split kept⟩
  | removeStamped source edgeType destination stamp =>
      obtain ⟨index, here, rfl⟩ := (removeStamped_eq_ok_iff linked).1 done
      have kept := linked.kept_of_unlinkAt here keeps
      obtain ⟨before, after, split, rfl⟩ := split_of_getElem? here
      refine ⟨_, (removeStamped_eq_ok_iff linked').2 ⟨_, ?_, rfl⟩,
        related.unlinkAt linked linked' split kept⟩
      rw [related.links_split split kept, getElem?_split]
  | remove id cascade =>
      obtain ⟨checked, rfl⟩ := step_remove_eq_ok_iff.1 done
      refine ⟨_, step_remove_eq_ok_iff.2 ⟨related.checkRemove sound sound' checked, rfl⟩, ?_⟩
      rw [related.contents sound.toPlaced sound'.toPlaced]
      exact related.detachAll sound sound'
        (sound.toPlaced.childrenFirst_contents (checkRemove_contains checked))

/-- Steps that give out no dropped stamp and take out no dropped edge have their like in the thin
store. -/
theorem perform (related : Thinned dropped full thin) (sound : full.Sound) (sound' : thin.Sound)
    {steps : List Step} {final : Store} (done : full.perform steps = (.ok (), final))
    (keeps : final.Keeps dropped)
    (fresh : ∀ stamp ∈ dropped, full.nextStamp ≤ stamp.number → final.nextStamp ≤ stamp.number) :
    ∃ final', thin.perform (steps.map (Step.among dropped)) = (.ok (), final') ∧
      Thinned dropped final final' := by
  induction steps generalizing full thin with
  | nil =>
      cases done
      exact ⟨thin, rfl, related⟩
  | cons step steps ih =>
      obtain ⟨next, first, rest⟩ := perform_cons_eq_ok_iff.1 done
      have stays : Later next final := by
        have later := (sound.step first).later_perform steps
        rwa [rest] at later
      obtain ⟨next', first', related'⟩ := related.step sound sound' first (stays.keeps keeps)
        fun stamp drop later => Nat.le_trans stays.nextStamp (fresh stamp drop later)
      obtain ⟨final', rest', ends⟩ := ih related' (sound.step first) (sound'.step first') rest
        fun stamp drop later =>
          fresh stamp drop (Nat.le_trans (sound.later_step first).nextStamp later)
      exact ⟨final', perform_cons_eq_ok_iff.2 ⟨next', first', rest'⟩, ends⟩

/-- Adding edges that all get dropped stamps leaves the thin store as it is. -/
theorem perform_dropped (related : Thinned dropped full thin) (sound : full.Sound)
    {source : ElementId} {edges : List (EdgeType × ElementId)} {final : Store}
    (done : full.perform (edges.map fun edge => .addEdge source edge.1 edge.2) = (.ok (), final))
    (drops : ∀ stamp ∈ EdgeStamp.between full.nextStamp final.nextStamp, stamp ∈ dropped) :
    Thinned dropped final thin := by
  induction edges generalizing full with
  | nil =>
      cases done
      exact related
  | cons edge edges ih =>
      obtain ⟨next, first, rest⟩ := perform_cons_eq_ok_iff.1 done
      have later := (sound.step first).later_perform
        (edges.map fun edge => .addEdge source edge.1 edge.2)
      rw [rest] at later
      have sound_next := sound.step first
      obtain ⟨checked, rfl⟩ := step_addEdge_eq_ok_iff.1 first
      have given_out : full.nextStamp < final.nextStamp := later.nextStamp
      refine ih (related.link_dropped sound.toLinked (checkEdge_eq_ok_iff.1 checked).1 _ _ ?_)
        sound_next rest fun stamp later_out => ?_
      · exact drops _ (EdgeStamp.mem_between.2 ⟨Nat.le_refl _, given_out⟩)
      · obtain ⟨from_next, below⟩ := EdgeStamp.mem_between.1 later_out
        exact drops stamp (EdgeStamp.mem_between.2 ⟨Nat.le_of_succ_le from_next, below⟩)

end Thinned

end Store

end LanguageGraph
