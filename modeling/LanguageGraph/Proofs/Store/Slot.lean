/-
# Proofs.Store.Slot — destinations and stamps, position by position

A slot keeps its destinations and their stamps in two multimaps. `Slot.links` reads both at once: the
destinations of one type, each beside its stamp. Whatever is done to a slot is one thing done to its
links: an edge is appended (`links_pushEdge`), one position is dropped (`links_removeEdgeAt`), or all
links to a destination are, the last one first, which comes to a filter (`links_dropEdgesTo`).

`Slot.Sound` is what keeps the two maps in step: equal lengths, no empty list in either, and stamps that
increase along the list.
-/
import LanguageGraph.Proofs.Multimap
import LanguageGraph.Proofs.Occurrence
import LanguageGraph.Store.Basic
import Mathlib.Data.List.InsertIdx

namespace LanguageGraph

set_option autoImplicit false

theorem EdgeType.eq_typeOf (edgeType : EdgeType) : edgeType = .typeOf := by
  cases edgeType
  rfl

namespace Slot

/-- The destinations of one type beside their stamps. -/
def links (slot : Slot) (edgeType : EdgeType) : List (ElementId × EdgeStamp) :=
  (slot.edges.get edgeType).zip (slot.stamps.get edgeType)

/-- Destinations and stamps are in step. -/
structure Sound (slot : Slot) : Prop where
  edges_tight : slot.edges.Tight
  stamps_tight : slot.stamps.Tight
  parallel : ∀ edgeType, (slot.edges.get edgeType).length = (slot.stamps.get edgeType).length
  increasing : ∀ edgeType,
    (slot.stamps.get edgeType).Pairwise fun first second => first.number < second.number

variable {slot : Slot}

namespace Sound

theorem map_fst_links (sound : slot.Sound) (edgeType : EdgeType) :
    (slot.links edgeType).map Prod.fst = slot.edges.get edgeType :=
  List.map_fst_zip (Nat.le_of_eq (sound.parallel edgeType))

theorem map_snd_links (sound : slot.Sound) (edgeType : EdgeType) :
    (slot.links edgeType).map Prod.snd = slot.stamps.get edgeType :=
  List.map_snd_zip (Nat.le_of_eq (sound.parallel edgeType).symm)

theorem stamps_nodup (sound : slot.Sound) (edgeType : EdgeType) :
    (slot.stamps.get edgeType).Nodup := by
  refine (sound.increasing edgeType).imp fun less same => ?_
  rw [same] at less
  exact Nat.lt_irrefl _ less

theorem links_nodup_stamps (sound : slot.Sound) (edgeType : EdgeType) :
    ((slot.links edgeType).map Prod.snd).Nodup := by
  rw [sound.map_snd_links]
  exact sound.stamps_nodup edgeType

end Sound

/-! ## A new slot -/

theorem new_sound (element : Element) (container : Option ElementId) :
    (new element container).Sound where
  edges_tight := Multimap.tight_empty
  stamps_tight := Multimap.tight_empty
  parallel _ := rfl
  increasing _ := List.Pairwise.nil

@[simp] theorem links_new (element : Element) (container : Option ElementId)
    (edgeType : EdgeType) : (new element container).links edgeType = [] := rfl

@[simp] theorem edges_new (element : Element) (container : Option ElementId)
    (edgeType : EdgeType) : (new element container).edges.get edgeType = [] := rfl

/-! ## One more edge -/

theorem links_pushEdge (sound : slot.Sound) (edgeType other : EdgeType)
    (destination : ElementId) (stamp : EdgeStamp) :
    (slot.pushEdge edgeType destination stamp).links other =
      if other = edgeType then slot.links edgeType ++ [(destination, stamp)]
      else slot.links other := by
  simp only [links, pushEdge, Multimap.get_push]
  split
  · exact List.zip_append (sound.parallel edgeType)
  · rfl

theorem Sound.pushEdge (sound : slot.Sound) (edgeType : EdgeType) (destination : ElementId)
    {stamp : EdgeStamp}
    (later : ∀ earlier ∈ slot.stamps.get edgeType, earlier.number < stamp.number) :
    (slot.pushEdge edgeType destination stamp).Sound where
  edges_tight := sound.edges_tight.update _ _
  stamps_tight := sound.stamps_tight.update _ _
  parallel other := by
    simp only [Slot.pushEdge, Multimap.get_push]
    split
    · simp [sound.parallel edgeType]
    · exact sound.parallel other
  increasing other := by
    simp only [Slot.pushEdge, Multimap.get_push]
    split
    · rw [List.pairwise_append]
      exact ⟨sound.increasing edgeType, List.pairwise_singleton _ _,
        fun earlier member _ same => List.mem_singleton.1 same ▸ later earlier member⟩
    · exact sound.increasing other

/-! ## One position less -/

theorem links_removeEdgeAt (sound : slot.Sound) (edgeType other : EdgeType) (index : Nat) :
    (slot.removeEdgeAt edgeType index).links other =
      if other = edgeType then (slot.links edgeType).eraseIdx index else slot.links other := by
  simp only [links, removeEdgeAt, Multimap.get_removeAt]
  split
  · refine (List.zip_of_prod ?_ ?_).symm
    · rw [← List.eraseIdx_map]
      exact congrArg (List.eraseIdx · index) (sound.map_fst_links edgeType)
    · rw [← List.eraseIdx_map]
      exact congrArg (List.eraseIdx · index) (sound.map_snd_links edgeType)
  · rfl

theorem Sound.removeEdgeAt (sound : slot.Sound) (edgeType : EdgeType) (index : Nat) :
    (slot.removeEdgeAt edgeType index).Sound where
  edges_tight := sound.edges_tight.removeAt _ _
  stamps_tight := sound.stamps_tight.removeAt _ _
  parallel other := by
    simp only [Slot.removeEdgeAt, Multimap.get_removeAt]
    split
    · rw [List.length_eraseIdx, List.length_eraseIdx, sound.parallel edgeType]
    · exact sound.parallel other
  increasing other := by
    simp only [Slot.removeEdgeAt, Multimap.get_removeAt]
    split
    · exact (sound.increasing edgeType).eraseIdx index
    · exact sound.increasing other

/-! ## No edge to a destination -/

/-- Where there is no edge of a type to a destination, a filter against them lets all links pass. -/
theorem Sound.filter_links_of_not_mem (sound : slot.Sound) {edgeType : EdgeType}
    {destination : ElementId} (absent : destination ∉ slot.edges.get edgeType) :
    (slot.links edgeType).filter (fun link => link.1 ≠ destination) = slot.links edgeType := by
  rw [List.filter_eq_self]
  intro link member
  have inEdges : link.1 ∈ slot.edges.get edgeType := by
    rw [← sound.map_fst_links]
    exact List.mem_map_of_mem member
  exact decide_eq_true fun same => absent (same ▸ inEdges)

/-- A position with an edge to a destination is dropped by a filter against them in any case. -/
theorem Sound.filter_links_removeEdgeAt (sound : slot.Sound) {edgeType : EdgeType}
    {destination : ElementId} {index : Nat}
    (there : (slot.edges.get edgeType)[index]? = some destination) :
    ((slot.removeEdgeAt edgeType index).links edgeType).filter (fun link => link.1 ≠ destination) =
      (slot.links edgeType).filter fun link => link.1 ≠ destination := by
  rw [links_removeEdgeAt sound, if_pos rfl]
  refine filter_eraseIdx fun link here kept => of_decide_eq_true kept ?_
  rw [← sound.map_fst_links, List.getElem?_map, here] at there
  exact Option.some.inj there

/-- What dropping a position keeps, dropping all edges to a destination keeps. -/
theorem dropEdgesOfType_induction (holds : Slot → Prop) {edgeType : EdgeType}
    (step : ∀ slot index, holds slot → holds (slot.removeEdgeAt edgeType index))
    (destination : ElementId) (rounds : Nat) (start : holds slot) :
    holds (slot.dropEdgesOfType edgeType destination rounds) := by
  induction rounds generalizing slot with
  | zero => exact start
  | succ rounds ih =>
      rw [dropEdgesOfType]
      split
      · exact ih (step slot _ start)
      · exact start

theorem Sound.dropEdgesOfType (sound : slot.Sound) (edgeType : EdgeType) (destination : ElementId)
    (rounds : Nat) : (slot.dropEdgesOfType edgeType destination rounds).Sound :=
  dropEdgesOfType_induction Sound (fun _ index sound => sound.removeEdgeAt edgeType index)
    destination rounds sound

/-- When there are as many rounds as edges, every link to the destination goes, and no other one. -/
theorem links_dropEdgesOfType (sound : slot.Sound) (edgeType : EdgeType) (destination : ElementId)
    {rounds : Nat} (enough : (slot.edges.get edgeType).length ≤ rounds) :
    (slot.dropEdgesOfType edgeType destination rounds).links edgeType =
      (slot.links edgeType).filter fun link => link.1 ≠ destination := by
  induction rounds generalizing slot with
  | zero =>
      have none_there : slot.edges.get edgeType = [] := List.eq_nil_of_length_eq_zero (by omega)
      exact (sound.filter_links_of_not_mem (none_there ▸ List.not_mem_nil)).symm
  | succ rounds ih =>
      rw [Slot.dropEdgesOfType]
      split
      · rename_i index found
        -- One position goes, so one round less is enough for what is left.
        have bound : index < (slot.edges.get edgeType).length := lastIndexOf?_lt found
        have fewer : ((slot.removeEdgeAt edgeType index).edges.get edgeType).length ≤ rounds := by
          rw [removeEdgeAt, Multimap.get_removeAt, if_pos rfl, List.length_eraseIdx_of_lt bound]
          omega
        rw [ih (sound.removeEdgeAt edgeType index) fewer,
          sound.filter_links_removeEdgeAt (getElem?_lastIndexOf? found)]
      · rename_i absent
        exact (sound.filter_links_of_not_mem (lastIndexOf?_eq_none_iff.1 absent)).symm

@[simp] theorem element_dropEdgesTo (destination : ElementId) :
    (slot.dropEdgesTo destination).element = slot.element :=
  dropEdgesOfType_induction (fun cleared => cleared.element = slot.element)
    (fun _ _ same => same) destination _ rfl

@[simp] theorem container_dropEdgesTo (destination : ElementId) :
    (slot.dropEdgesTo destination).container = slot.container :=
  dropEdgesOfType_induction (fun cleared => cleared.container = slot.container)
    (fun _ _ same => same) destination _ rfl

@[simp] theorem id_dropEdgesTo (destination : ElementId) :
    (slot.dropEdgesTo destination).id = slot.id :=
  congrArg Element.id (element_dropEdgesTo destination)

theorem Sound.dropEdgesTo (sound : slot.Sound) (destination : ElementId) :
    (slot.dropEdgesTo destination).Sound :=
  sound.dropEdgesOfType _ _ _

theorem links_dropEdgesTo (sound : slot.Sound) (destination : ElementId) (edgeType : EdgeType) :
    (slot.dropEdgesTo destination).links edgeType =
      (slot.links edgeType).filter fun link => link.1 ≠ destination := by
  obtain rfl := edgeType.eq_typeOf
  exact links_dropEdgesOfType sound .typeOf destination (Nat.le_refl _)

theorem edges_dropEdgesTo (sound : slot.Sound) (destination : ElementId) (edgeType : EdgeType) :
    (slot.dropEdgesTo destination).edges.get edgeType =
      (slot.edges.get edgeType).filter fun other => other ≠ destination := by
  rw [← (sound.dropEdgesTo destination).map_fst_links, links_dropEdgesTo sound,
    ← sound.map_fst_links, List.filter_map]
  rfl

theorem stamps_dropEdgesTo (sound : slot.Sound) (destination : ElementId) (edgeType : EdgeType) :
    (slot.dropEdgesTo destination).stamps.get edgeType =
      ((slot.links edgeType).filter fun link => link.1 ≠ destination).map Prod.snd := by
  rw [← (sound.dropEdgesTo destination).map_snd_links, links_dropEdgesTo sound]

/-- Two slots in step with the same element, container and links are the same. -/
theorem ext_links {first second : Slot} (sound : first.Sound) (sound' : second.Sound)
    (element : first.element = second.element) (container : first.container = second.container)
    (links : ∀ edgeType, first.links edgeType = second.links edgeType) : first = second := by
  have edges : first.edges = second.edges :=
    Multimap.eq_of_get sound.edges_tight sound'.edges_tight EdgeType.eq_typeOf <| by
      rw [← sound.map_fst_links, ← sound'.map_fst_links, links]
  have stamps : first.stamps = second.stamps :=
    Multimap.eq_of_get sound.stamps_tight sound'.stamps_tight EdgeType.eq_typeOf <| by
      rw [← sound.map_snd_links, ← sound'.map_snd_links, links]
  obtain ⟨element₁, container₁, edges₁, stamps₁⟩ := first
  obtain ⟨element₂, container₂, edges₂, stamps₂⟩ := second
  simp_all

theorem dropEdgesTo_of_not_mem (sound : slot.Sound) {destination : ElementId}
    (absent : ∀ edgeType, destination ∉ slot.edges.get edgeType) :
    slot.dropEdgesTo destination = slot := by
  refine ext_links (sound.dropEdgesTo destination) sound (element_dropEdgesTo destination)
    (container_dropEdgesTo destination) fun edgeType => ?_
  rw [links_dropEdgesTo sound, sound.filter_links_of_not_mem (absent edgeType)]

end Slot

end LanguageGraph
