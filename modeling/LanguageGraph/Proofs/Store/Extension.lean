/-
# Proofs.Store.Extension — a graph to which edges were added

Added edges stand behind the others of their source, each beside the stamp it was given, and their
entries behind the others in the index of their destination (`Extended`). All else stays. This is all
that adding edges one after the other does (`Sound.extended_perform`).
-/
import LanguageGraph.Proofs.Stamp
import LanguageGraph.Proofs.Store.Referrers
import LanguageGraph.Proofs.Store.Run

namespace LanguageGraph

set_option autoImplicit false

/-- Those of some stamped edges that start at an element and are of a type: destinations and stamps. -/
def linksAmong (id : ElementId) (edgeType : EdgeType)
    (added : List ((ElementId × EdgeType × ElementId) × EdgeStamp)) :
    List (ElementId × EdgeStamp) :=
  (added.filter fun edge => edge.1.1 = id ∧ edge.1.2.1 = edgeType).map fun edge =>
    (edge.1.2.2, edge.2)

/-- Those of some edges that start at an element and are of a type: destinations only. -/
def destinationsAmong (id : ElementId) (edgeType : EdgeType)
    (added : List (ElementId × EdgeType × ElementId)) : List ElementId :=
  (added.filter fun edge => edge.1 = id ∧ edge.2.1 = edgeType).map fun edge => edge.2.2

/-- Those of some edges that end at an element: sources and types. -/
def referrersAmong (destination : ElementId) (added : List (ElementId × EdgeType × ElementId)) :
    List (ElementId × EdgeType) :=
  (added.filter fun edge => edge.2.2 = destination).map fun edge => (edge.1, edge.2.1)

section Among

variable {id : ElementId} {edgeType : EdgeType}

theorem mem_linksAmong {added : List ((ElementId × EdgeType × ElementId) × EdgeStamp)}
    {link : ElementId × EdgeStamp} :
    link ∈ linksAmong id edgeType added ↔ ((id, edgeType, link.1), link.2) ∈ added := by
  constructor
  · intro member
    obtain ⟨⟨⟨source, other, destination⟩, stamp⟩, chosen, rfl⟩ := List.mem_map.1 member
    obtain ⟨there, mine⟩ := List.mem_filter.1 chosen
    obtain ⟨rfl, rfl⟩ := of_decide_eq_true mine
    exact there
  · intro there
    exact List.mem_map.2
      ⟨((id, edgeType, link.1), link.2), List.mem_filter.2 ⟨there, decide_eq_true ⟨rfl, rfl⟩⟩, rfl⟩

theorem mem_destinationsAmong {added : List (ElementId × EdgeType × ElementId)}
    {destination : ElementId} :
    destination ∈ destinationsAmong id edgeType added ↔ (id, edgeType, destination) ∈ added := by
  constructor
  · intro member
    obtain ⟨⟨source, other, destination⟩, chosen, rfl⟩ := List.mem_map.1 member
    obtain ⟨there, mine⟩ := List.mem_filter.1 chosen
    obtain ⟨rfl, rfl⟩ := of_decide_eq_true mine
    exact there
  · intro there
    exact List.mem_map.2 ⟨_, List.mem_filter.2 ⟨there, decide_eq_true ⟨rfl, rfl⟩⟩, rfl⟩

theorem linksAmong_cons (edge : (ElementId × EdgeType × ElementId) × EdgeStamp)
    (added : List ((ElementId × EdgeType × ElementId) × EdgeStamp)) :
    linksAmong id edgeType (edge :: added) =
      (if id = edge.1.1 ∧ edgeType = edge.1.2.1 then [(edge.1.2.2, edge.2)] else []) ++
        linksAmong id edgeType added := by
  rw [linksAmong, List.filter_cons]
  by_cases mine : edge.1.1 = id ∧ edge.1.2.1 = edgeType
  · have mine' : id = edge.1.1 ∧ edgeType = edge.1.2.1 := ⟨mine.1.symm, mine.2.symm⟩
    rw [if_pos (decide_eq_true mine), if_pos mine']
    rfl
  · have other : ¬ (id = edge.1.1 ∧ edgeType = edge.1.2.1) := fun is =>
      mine ⟨is.1.symm, is.2.symm⟩
    rw [if_neg fun is => mine (of_decide_eq_true is), if_neg other]
    rfl

theorem referrersAmong_cons (destination : ElementId) (edge : ElementId × EdgeType × ElementId)
    (added : List (ElementId × EdgeType × ElementId)) :
    referrersAmong destination (edge :: added) =
      (if edge.2.2 = destination then [(edge.1, edge.2.1)] else []) ++
        referrersAmong destination added := by
  rw [referrersAmong, List.filter_cons]
  by_cases here : edge.2.2 = destination
  · rw [if_pos (decide_eq_true here), if_pos here]
    rfl
  · rw [if_neg fun is => here (of_decide_eq_true is), if_neg here]
    rfl

/-- Without their stamps the links are the destinations, when there is a stamp for each edge. -/
theorem map_fst_linksAmong {added : List (ElementId × EdgeType × ElementId)}
    {stamps : List EdgeStamp} (length : stamps.length = added.length) :
    (linksAmong id edgeType (added.zip stamps)).map Prod.fst =
      destinationsAmong id edgeType added := by
  have edges : (added.zip stamps).map Prod.fst = added :=
    List.map_fst_zip (Nat.le_of_eq length.symm)
  rw [destinationsAmong, ← edges, List.filter_map, List.map_map, linksAmong, List.map_map, edges]
  rfl

/-- Edges of one source are none of another's. -/
theorem linksAmong_of_source_ne {added : List ((ElementId × EdgeType × ElementId) × EdgeStamp)}
    (others : ∀ edge ∈ added, edge.1.1 ≠ id) : linksAmong id edgeType added = [] := by
  apply List.eq_nil_iff_forall_not_mem.2
  intro link member
  exact others _ (mem_linksAmong.1 member) rfl

end Among

namespace Store

/-- One store is another to which edges were added. -/
structure Extended (added : List (ElementId × EdgeType × ElementId)) (store extended : Store) :
    Prop where
  places : extended.places = store.places
  root : extended.root = store.root
  nextStamp : extended.nextStamp = store.nextStamp + added.length
  links : ∀ id edgeType, extended.links id edgeType = store.links id edgeType ++
    linksAmong id edgeType (added.zip (EdgeStamp.between store.nextStamp extended.nextStamp))
  referrers : ∀ destination, extended.referrers destination =
    store.referrers destination ++ referrersAmong destination added

variable {store : Store}

theorem Extended.refl (store : Store) : Extended [] store store where
  places := rfl
  root := rfl
  nextStamp := rfl
  links id edgeType := (List.append_nil (store.links id edgeType)).symm
  referrers destination := (List.append_nil (store.referrers destination)).symm

/-- One edge, and then the others. -/
theorem Extended.cons (linked : store.Linked) {source : ElementId}
    (there : store.contains source = true) {edgeType : EdgeType} {destination : ElementId}
    {added : List (ElementId × EdgeType × ElementId)} {extended : Store}
    (rest : Extended added (store.link source edgeType destination) extended) :
    Extended ((source, edgeType, destination) :: added) store extended where
  places := rest.places.trans (places_link store source edgeType destination)
  root := rest.root
  nextStamp := by
    have more : extended.nextStamp = store.nextStamp + 1 + added.length := rest.nextStamp
    rw [more, List.length_cons]
    omega
  links id edgeType' := by
    have more : extended.nextStamp = store.nextStamp + 1 + added.length := rest.nextStamp
    have given_out : store.nextStamp < extended.nextStamp := by omega
    have next : (store.link source edgeType destination).nextStamp = store.nextStamp + 1 := rfl
    rw [rest.links, linked.links_link there, next, EdgeStamp.between_of_lt given_out,
      List.zip_cons_cons, linksAmong_cons, List.append_assoc]
  referrers other := by
    rw [rest.referrers, referrers_link, referrersAmong_cons, List.append_assoc]

/-- Adding edges of a source one after the other extends the store by these edges. -/
theorem Sound.extended_perform (sound : store.Sound) {source : ElementId}
    {edges : List (EdgeType × ElementId)} {final : Store}
    (done : store.perform (edges.map fun edge => .addEdge source edge.1 edge.2) =
      (.ok (), final)) :
    Extended (edges.map fun edge => (source, edge)) store final := by
  induction edges generalizing store with
  | nil =>
      cases done
      exact .refl _
  | cons edge edges ih =>
      obtain ⟨next, first, rest⟩ := perform_cons_eq_ok_iff.1 done
      have sound_next := sound.step first
      obtain ⟨checked, rfl⟩ := step_addEdge_eq_ok_iff.1 first
      have there := (checkEdge_eq_ok_iff.1 checked).1
      exact .cons sound.toLinked there (ih sound_next rest)

end Store

end LanguageGraph
