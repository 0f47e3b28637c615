/-
# Proofs.Operation.Unlinking — a graph without listed edges of one element

Removing an edge without its stamp takes the latest of equal edges, and that one has a stamp. So removing
listed edges one after the other is removing them by stamps (`Sound.removeStamped_of_removeEdges`): those
of the last edges to each destination, as many as are listed (`latest`).

Edges that go by their stamps leave a store that does not tell in which order they went
(`Unlinked.eq_of_perm`). The links of their source are filtered by stamp; and of the index, which loses
the latest of equal entries for each of them, no part remembers more than how many went.
-/
import LanguageGraph.Proofs.Operation.Reversal
import Mathlib.Data.List.DropRight

namespace LanguageGraph

set_option autoImplicit false

namespace Store

/-- One store is another without listed edges of one element, each named by its stamp. -/
structure Unlinked (source : ElementId) (listed : List ((EdgeType × ElementId) × EdgeStamp))
    (store unlinked : Store) : Prop extends Stripped (listed.map Prod.snd) store unlinked where
  children : unlinked.children = store.children
  incoming : unlinked.incoming = listed.foldl
    (fun incoming edge => forgetIncoming incoming source edge.1.1 edge.1.2) store.incoming
  nextStamp : unlinked.nextStamp = store.nextStamp

/-- To all reads, one graph is another but for the edges of one element, of which some stay. -/
structure Trimmed (source : ElementId) (stays : EdgeType → ElementId × EdgeStamp → Bool)
    (store trimmed : Store) : Prop where
  elements : trimmed.elements = store.elements
  containerOf? : ∀ id, trimmed.containerOf? id = store.containerOf? id
  childrenOf : ∀ id, trimmed.childrenOf id = store.childrenOf id
  root : trimmed.root = store.root
  nextStamp : trimmed.nextStamp = store.nextStamp
  /-- Edges that stay keep their stamps and their order. -/
  edges : ∀ edgeType, trimmed.edges source edgeType =
    ((store.links source edgeType).filter (stays edgeType)).map Prod.fst
  edgeStamps : ∀ edgeType, trimmed.edgeStamps source edgeType =
    ((store.links source edgeType).filter (stays edgeType)).map Prod.snd
  edges_of_others : ∀ id, id ≠ source → ∀ edgeType,
    trimmed.edges id edgeType = store.edges id edgeType
  edgeStamps_of_others : ∀ id, id ≠ source → ∀ edgeType,
    trimmed.edgeStamps id edgeType = store.edgeStamps id edgeType
  /-- The indices agree with the edges that are left. -/
  indexed : trimmed.Indexed

/-- The last edges to a destination, so many of them, with their stamps. -/
def latest (store : Store) (source : ElementId) (edgeType : EdgeType) (destination : ElementId)
    (number : Nat) : List (ElementId × EdgeStamp) :=
  ((store.links source edgeType).filter fun link => link.1 = destination).rtake number

/-- Edges and stamps name, each once, the last edges of an element, of every edge as many as another
list has. -/
structure NamesLatest (store : Store) (source : ElementId) (wanted edges : List (EdgeType × ElementId))
    (stamps : List EdgeStamp) : Prop where
  length : stamps.length = edges.length
  nodup : stamps.Nodup
  mem_iff : ∀ edge stamp, (edge, stamp) ∈ edges.zip stamps ↔
    (edge.2, stamp) ∈ store.latest source edge.1 edge.2 (wanted.count edge)

variable {store left left' : Store} {source : ElementId} {edgeType : EdgeType}
  {destination : ElementId} {listed listed' : List ((EdgeType × ElementId) × EdgeStamp)}
  {edges wanted : List (EdgeType × ElementId)} {stamps stamps' : List EdgeStamp}

theorem Linked.eq_of_stamp (linked : store.Linked) {other : ElementId} {edgeType' : EdgeType}
    {link link' : ElementId × EdgeStamp} (there : link ∈ store.links source edgeType)
    (there' : link' ∈ store.links other edgeType') (same : link.2 = link'.2) :
    edgeType = edgeType' ∧ link = link' := by
  obtain ⟨rfl, rfl⟩ := linked.links_apart there there' same
  exact ⟨rfl, List.inj_on_of_nodup_map (linked.stamps_nodup source edgeType) there there' same⟩

theorem latest_subset (store : Store) (source : ElementId) (edgeType : EdgeType)
    (destination : ElementId) (number : Nat) :
    store.latest source edgeType destination number ⊆ store.links source edgeType := by
  intro link inLatest
  exact (List.mem_filter.1 ((List.drop_suffix _ _).subset inLatest)).1

/-! ## Edges that go by their stamps -/

theorem forgetIncoming_comm (incoming : Multimap ElementId (ElementId × EdgeType))
    (source : ElementId) (edge other : EdgeType × ElementId) :
    forgetIncoming (forgetIncoming incoming source edge.1 edge.2) source other.1 other.2 =
      forgetIncoming (forgetIncoming incoming source other.1 other.2) source edge.1 edge.2 :=
  incoming.update_comm rfl rfl fun _ _ => eraseLast_comm _ _ _

/-- Removing listed edges by their stamps forgets an entry of the index for each, and leaves the lists of
children and the next stamp. -/
theorem Sound.indices_perform_removeStamped (sound : store.Sound)
    (done : store.perform (listed.map fun edge =>
      .removeStamped source edge.1.1 edge.1.2 edge.2) = (.ok (), left)) :
    left.children = store.children ∧
      left.incoming = listed.foldl (fun incoming edge =>
        forgetIncoming incoming source edge.1.1 edge.1.2) store.incoming ∧
      left.nextStamp = store.nextStamp := by
  induction listed generalizing store with
  | nil =>
      cases done
      exact ⟨rfl, rfl, rfl⟩
  | cons edge listed ih =>
      obtain ⟨next, removed, rest⟩ := perform_cons_eq_ok_iff.1 done
      have later := ih (sound.removeStamped removed) rest
      obtain ⟨index, -, rfl⟩ := (removeStamped_eq_ok_iff sound.toLinked).1 removed
      exact later

/-- Removing listed edges by their stamps leaves the store without them. -/
theorem Sound.unlinked_perform (sound : store.Sound)
    (done : store.perform (listed.map fun edge =>
      .removeStamped source edge.1.1 edge.1.2 edge.2) = (.ok (), left)) :
    Unlinked source listed store left := by
  obtain ⟨children, incoming, nextStamp⟩ := sound.indices_perform_removeStamped done
  exact ⟨.perform sound done, children, incoming, nextStamp⟩

/-- What is left does not tell in which order the edges went. -/
theorem Unlinked.eq_of_perm (out : Unlinked source listed store left)
    (out' : Unlinked source listed' store left') (sound : left.Sound) (sound' : left'.Sound)
    (perm : listed.Perm listed') : left = left' := by
  have incoming : left'.incoming = left.incoming := by
    rw [out.incoming, out'.incoming]
    exact perm.symm.foldl_eq' (fun _ _ _ _ between => forgetIncoming_comm between _ _ _) _
  have links : ∀ id edgeType, left'.links id edgeType = left.links id edgeType := by
    intro id edgeType
    rw [out.links, out'.links]
    apply List.filter_congr
    intro link _
    simp only [(perm.map Prod.snd).mem_iff]
  have slots : left'.slots = left.slots :=
    (sound.restored_of_links sound' (out'.places.trans out.places.symm) links
      (fun destination => congrArg (Multimap.get · destination) incoming)
      (out'.root.trans out.root.symm)).slots
  have children := out'.children.trans out.children.symm
  have root := out'.root.trans out.root.symm
  have nextStamp := out'.nextStamp.trans out.nextStamp.symm
  cases left
  cases left'
  simp_all

/-- What is left can be told by reads. -/
theorem Unlinked.trimmed (out : Unlinked source listed store left) (sound : store.Sound)
    (sound' : left.Sound)
    (there : ∀ edge ∈ listed, (edge.1.2, edge.2) ∈ store.links source edge.1.1) :
    Trimmed source (fun _ link => link.2 ∉ listed.map Prod.snd) store left := by
  -- No other element has an edge with one of the stamps.
  have others : ∀ id, id ≠ source → ∀ edgeType,
      left.links id edgeType = store.links id edgeType := by
    intro id unlike edgeType
    rw [out.links, List.filter_eq_self]
    intro link inLinks
    apply decide_eq_true
    intro inStamps
    obtain ⟨edge, inListed, same⟩ := List.mem_map.1 inStamps
    exact unlike (sound.toLinked.links_apart inLinks (there edge inListed) same.symm).1
  constructor
  · rw [elements_eq_map, elements_eq_map, out.places]
  · intro id
    rw [containerOf?_eq_find, containerOf?_eq_find, out.places]
  · intro id
    exact congrArg (Multimap.get · id) out.children
  · exact out.root
  · exact out.nextStamp
  · intro edgeType
    rw [← sound'.toLinked.map_fst_links, out.links]
  · intro edgeType
    rw [← sound'.toLinked.map_snd_links, out.links]
  · intro id unlike edgeType
    rw [← sound'.toLinked.map_fst_links, others id unlike, sound.toLinked.map_fst_links]
  · intro id unlike edgeType
    rw [← sound'.toLinked.map_snd_links, others id unlike, sound.toLinked.map_snd_links]
  · exact sound'.indexed

/-- Only what is said of the edges that were there counts. -/
theorem Trimmed.congr {stays stays' : EdgeType → ElementId × EdgeStamp → Bool}
    (trimmed : Trimmed source stays store left)
    (same : ∀ edgeType, ∀ link ∈ store.links source edgeType,
      stays edgeType link = stays' edgeType link) : Trimmed source stays' store left := by
  have filtered : ∀ edgeType, (store.links source edgeType).filter (stays edgeType) =
      (store.links source edgeType).filter (stays' edgeType) :=
    fun edgeType => List.filter_congr (same edgeType)
  refine { trimmed with edges := ?_, edgeStamps := ?_ }
  · intro edgeType
    rw [trimmed.edges, filtered]
  · intro edgeType
    rw [trimmed.edgeStamps, filtered]

/-! ## Edges that go without their stamps -/

/-- The latest edge to a destination splits the links of its source. -/
theorem Linked.links_split (linked : store.Linked) {index : Nat}
    (found : lastIndexOf? destination (store.edges source edgeType) = some index) :
    ∃ before stamp after,
      store.links source edgeType = before ++ (destination, stamp) :: after ∧
        before.length = index ∧ ∀ link ∈ after, link.1 ≠ destination := by
  obtain ⟨before, after, split, rfl, absent⟩ := lastIndexOf?_split found
  rw [← linked.map_fst_links] at split
  obtain ⟨early, rest, whole, rfl, ends⟩ := List.map_eq_append_iff.1 split
  obtain ⟨⟨_, stamp⟩, late, rfl, rfl, rfl⟩ := List.map_eq_cons_iff.1 ends
  refine ⟨early, stamp, late, whole, (List.length_map Prod.fst).symm, ?_⟩
  intro link inLate same
  exact absent (same ▸ List.mem_map_of_mem inLate)

/-- Taking the latest edge to a destination leaves one less to take. -/
theorem Linked.latest_unlinkAt (linked : store.Linked) {before after : List (ElementId × EdgeStamp)}
    {stamp : EdgeStamp}
    (split : store.links source edgeType = before ++ (destination, stamp) :: after)
    (last : ∀ link ∈ after, link.1 ≠ destination) (edge : EdgeType × ElementId) (number : Nat) :
    store.latest source edge.1 edge.2
        (number + if edge = (edgeType, destination) then 1 else 0) =
      (store.unlinkAt source edgeType destination before.length).latest source edge.1 edge.2
          number ++
        if edge = (edgeType, destination) then [(destination, stamp)] else [] := by
  obtain ⟨edgeType', destination'⟩ := edge
  rw [latest, latest, linked.links_unlinkAt]
  dsimp only
  by_cases typed : edgeType' = edgeType
  · subst typed
    rw [if_pos (⟨rfl, rfl⟩ : source = source ∧ edgeType' = edgeType'), split, eraseIdx_split,
      List.filter_append, List.filter_append]
    by_cases here : destination' = destination
    · subst here
      have none_later : after.filter (fun link => link.1 = destination') = [] := by
        simpa [List.filter_eq_nil_iff] using last
      simp [none_later, List.rtake_concat_succ]
    · have unlike : (edgeType', destination') ≠ (edgeType', destination) :=
        fun same => here (Prod.mk.inj same).2
      have passed : ¬ decide ((destination, stamp).1 = destination') = true :=
        fun same => here (of_decide_eq_true same).symm
      rw [if_neg unlike, if_neg unlike, List.filter_cons, if_neg passed, Nat.add_zero,
        List.append_nil]
  · have unlike : (edgeType', destination') ≠ (edgeType, destination) :=
      fun same => typed (Prod.mk.inj same).1
    rw [if_neg unlike, if_neg unlike, if_neg fun both => typed both.2, Nat.add_zero,
      List.append_nil]

/-- **To remove listed edges without their stamps is to remove by stamps the last edges to each
destination, as many as are listed.** -/
theorem Sound.removeStamped_of_removeEdges (sound : store.Sound)
    (done : store.perform (edges.map fun edge => .removeEdge source edge.1 edge.2) =
      (.ok (), left)) :
    ∃ stamps, store.NamesLatest source edges edges stamps ∧
      store.perform ((edges.zip stamps).map fun edge =>
        .removeStamped source edge.1.1 edge.1.2 edge.2) = (.ok (), left) := by
  induction edges generalizing store with
  | nil => exact ⟨[], ⟨rfl, List.nodup_nil, fun edge stamp => by simp [latest]⟩, done⟩
  | cons first edges ih =>
      obtain ⟨next, removed, rest⟩ := perform_cons_eq_ok_iff.1 done
      obtain ⟨index, found, rfl⟩ := removeEdge_eq_ok_iff.1 removed
      obtain ⟨before, stamp, after, split, rfl, last⟩ := sound.toLinked.links_split found
      have here : (store.links source first.1)[before.length]? = some (first.2, stamp) := by
        rw [split]
        exact getElem?_split before after _
      obtain ⟨stamps, named, by_stamps⟩ := ih (sound.removeEdge removed) rest
      refine ⟨stamp :: stamps, ⟨by simp [named.length], ?_, ?_⟩, ?_⟩
      · refine List.nodup_cons.2 ⟨fun again => ?_, named.nodup⟩
        -- A stamp that is taken later is one of the stamps that are left.
        rw [← List.map_snd_zip (Nat.le_of_eq named.length)] at again
        obtain ⟨⟨edge, _⟩, inZip, rfl⟩ := List.mem_map.1 again
        have inLatest := (named.mem_iff edge _).1 inZip
        have inLinks := latest_subset _ _ _ _ _ inLatest
        rw [sound.toLinked.links_unlinkAt_eq_filter here] at inLinks
        exact of_decide_eq_true (List.mem_filter.1 inLinks).2 rfl
      · intro edge other
        rw [count_cons_ite, sound.toLinked.latest_unlinkAt split last edge, List.mem_append,
          ← named.mem_iff, List.zip_cons_cons, List.mem_cons, or_comm]
        apply or_congr_right
        by_cases same : edge = first
        · simp [same]
        · simp [same]
      · exact perform_cons_eq_ok_iff.2
          ⟨_, (removeStamped_eq_ok_iff sound.toLinked).2 ⟨_, here, rfl⟩, by_stamps⟩

namespace NamesLatest

variable {wanted' edges' : List (EdgeType × ElementId)}

theorem nodup_zip (named : store.NamesLatest source wanted edges stamps) :
    (edges.zip stamps).Nodup := by
  apply List.Nodup.of_map Prod.snd
  rw [List.map_snd_zip (Nat.le_of_eq named.length)]
  exact named.nodup

/-- Edges that are wanted equally often are named by the same stamps. -/
theorem perm (named : store.NamesLatest source wanted edges stamps)
    (named' : store.NamesLatest source wanted' edges' stamps') (same : wanted.Perm wanted') :
    (edges.zip stamps).Perm (edges'.zip stamps') := by
  rw [List.perm_ext_iff_of_nodup named.nodup_zip named'.nodup_zip]
  rintro ⟨edge, stamp⟩
  rw [named.mem_iff, named'.mem_iff, same.count_eq]

theorem mem_links (named : store.NamesLatest source wanted edges stamps) :
    ∀ edge ∈ edges.zip stamps, (edge.1.2, edge.2) ∈ store.links source edge.1.1 := by
  intro edge inZip
  exact latest_subset _ _ _ _ _ ((named.mem_iff edge.1 edge.2).1 inZip)

/-- The stamps that are named are those of the last edges. -/
theorem mem_stamps_iff (named : store.NamesLatest source wanted edges stamps)
    (linked : store.Linked) {link : ElementId × EdgeStamp}
    (there : link ∈ store.links source edgeType) :
    link.2 ∈ stamps ↔
      link ∈ store.latest source edgeType link.1 (wanted.count (edgeType, link.1)) := by
  constructor
  · intro inStamps
    rw [← List.map_snd_zip (Nat.le_of_eq named.length)] at inStamps
    obtain ⟨edge, inZip, same⟩ := List.mem_map.1 inStamps
    obtain ⟨typed, rfl⟩ := linked.eq_of_stamp there (named.mem_links edge inZip) same.symm
    rw [typed]
    exact (named.mem_iff edge.1 edge.2).1 inZip
  · intro inLatest
    exact (List.of_mem_zip ((named.mem_iff (edgeType, link.1) link.2).2 inLatest)).2

end NamesLatest

end Store

end LanguageGraph
