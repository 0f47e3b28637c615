/-
# Proofs.Store.Stamps — a stamp names one edge, once and for all

Destinations and stamps stand in two lists of the same length, edited position by position, so that a
stamp always stands beside its own edge (`Stamped`). No two edges of a graph have one stamp, and all
stamps are below the next one to be given out.

Since that number only goes up, a stamp that was given out belongs to the edge it was given to, whatever
happens later: once that edge is gone, no edge of any later graph carries its stamp, and to remove one
by it is refused (`stamped_run`).
-/
import LanguageGraph.Proofs.Store.Indices
import LanguageGraph.Proofs.Store.Later

namespace LanguageGraph

set_option autoImplicit false

namespace Store

/-- The stamps of all edges of a graph, found by a scan. -/
def allStamps (store : Store) : List EdgeStamp :=
  store.elements.flatMap fun element =>
    EdgeType.all.flatMap fun edgeType => store.edgeStamps element.id edgeType

/-- Each edge of a graph has a stamp of its own. -/
structure Stamped (store : Store) : Prop where
  /-- An element has as many stamps as edges. -/
  parallel : ∀ id edgeType,
    (store.edges id edgeType).length = (store.edgeStamps id edgeType).length
  /-- No element keeps an empty list, of destinations or of stamps. -/
  tight : ∀ slot ∈ store.slots, slot.edges.Tight ∧ slot.stamps.Tight
  /-- Stamps go up along the edges of an element. -/
  increasing : ∀ id edgeType,
    (store.edgeStamps id edgeType).Pairwise fun earlier later => earlier.number < later.number
  /-- No stamp stands twice in the graph. -/
  nodup : store.allStamps.Nodup
  /-- Every stamp was given out before. -/
  below : ∀ stamp ∈ store.allStamps, stamp.number < store.nextStamp

variable {store : Store} {id : ElementId} {edgeType : EdgeType} {stamp : EdgeStamp}

/-! ## All stamps of a graph -/

theorem Linked.mem_edgeStamps (linked : store.Linked) :
    stamp ∈ store.edgeStamps id edgeType ↔
      ∃ destination, (destination, stamp) ∈ store.links id edgeType := by
  rw [← linked.map_snd_links, List.mem_map]
  constructor
  · rintro ⟨⟨destination, _⟩, there, rfl⟩
    exact ⟨destination, there⟩
  · rintro ⟨destination, there⟩
    exact ⟨(destination, stamp), there, rfl⟩

theorem contains_of_mem_edgeStamps (there : stamp ∈ store.edgeStamps id edgeType) :
    store.contains id = true := by
  rw [edgeStamps] at there
  cases found : store.slot? id with
  | none => simp [found] at there
  | some slot => rw [contains, found, Option.isSome_some]

theorem mem_allStamps :
    stamp ∈ store.allStamps ↔ ∃ id edgeType, stamp ∈ store.edgeStamps id edgeType := by
  simp only [allStamps, List.mem_flatMap]
  constructor
  · rintro ⟨element, -, edgeType, -, there⟩
    exact ⟨element.id, edgeType, there⟩
  · rintro ⟨id, edgeType, there⟩
    have present := contains_of_mem_edgeStamps there
    rw [contains_iff_ids, ← ids_elements, List.mem_map] at present
    obtain ⟨element, member, rfl⟩ := present
    exact ⟨element, member, edgeType, edgeType.mem_all, there⟩

/-- The elements have different stamps, and so have the edges of one element. -/
theorem Sound.nodup_allStamps (sound : store.Sound) : store.allStamps.Nodup := by
  have ids := sound.nodup
  rw [← ids_elements, List.Nodup, List.pairwise_map] at ids
  rw [allStamps, List.nodup_flatMap]
  constructor
  · intro element _
    rw [EdgeType.all, List.flatMap_singleton, ← sound.toLinked.map_snd_links]
    exact sound.toLinked.stamps_nodup element.id .typeOf
  · refine ids.imp fun unlike stamp inFirst inSecond => unlike ?_
    obtain ⟨edgeType, -, here⟩ := List.mem_flatMap.1 inFirst
    obtain ⟨edgeType', -, here'⟩ := List.mem_flatMap.1 inSecond
    obtain ⟨destination, linked⟩ := sound.toLinked.mem_edgeStamps.1 here
    obtain ⟨destination', linked'⟩ := sound.toLinked.mem_edgeStamps.1 here'
    exact (sound.toLinked.links_apart linked linked' rfl).1

theorem Linked.allStamps_below (linked : store.Linked) :
    ∀ stamp ∈ store.allStamps, stamp.number < store.nextStamp := by
  intro stamp member
  obtain ⟨id, edgeType, there⟩ := mem_allStamps.1 member
  obtain ⟨destination, there⟩ := linked.mem_edgeStamps.1 there
  exact linked.links_below there

theorem Sound.stamped (sound : store.Sound) : store.Stamped where
  parallel id edgeType := by
    rw [← sound.toLinked.map_fst_links, ← sound.toLinked.map_snd_links, List.length_map,
      List.length_map]
  tight slot member :=
    ⟨(sound.sound slot member).edges_tight, (sound.sound slot member).stamps_tight⟩
  increasing := sound.toLinked.increasing
  nodup := sound.nodup_allStamps
  below := sound.toLinked.allStamps_below

/-! ## Stamps of edges that are gone -/

/-- A stamp that an earlier store gave out and a later one has was there all the time. -/
theorem Later.mem_allStamps {earlier later : Store} (reached : Later earlier later)
    (linked : earlier.Linked) (linked' : later.Linked) (given : stamp.number < earlier.nextStamp)
    (there : stamp ∈ later.allStamps) : stamp ∈ earlier.allStamps := by
  obtain ⟨id, edgeType, inStamps⟩ := Store.mem_allStamps.1 there
  obtain ⟨destination, inLinks⟩ := linked'.mem_edgeStamps.1 inStamps
  have before := reached.links id edgeType (destination, stamp) inLinks given
  exact Store.mem_allStamps.2 ⟨id, edgeType, linked.mem_edgeStamps.2 ⟨destination, before⟩⟩

/-- To remove an edge by a stamp that no edge has is refused, wherever the edge is said to be. -/
theorem Linked.checkRemoveStamped_of_not_mem (linked : store.Linked)
    (absent : stamp ∉ store.allStamps) (source : ElementId) (edgeType : EdgeType)
    (destination : ElementId) :
    store.checkRemoveStamped source edgeType destination stamp =
      .error (if store.contains source then
          .unknownEdgeStamp source edgeType destination stamp
        else .unknownElement source) := by
  have missing : ¬ store.checkRemoveStamped source edgeType destination stamp = .ok () := by
    intro accepted
    have there := (checkRemoveStamped_eq_ok_iff linked).1 accepted
    exact absent (mem_allStamps.2 ⟨source, edgeType, linked.mem_edgeStamps.2 ⟨destination, there⟩⟩)
  unfold checkRemoveStamped at missing ⊢
  cases found : store.slot? source with
  | none => rw [contains, found, Option.isSome_none, if_neg Bool.false_ne_true]
  | some slot =>
      simp only [found] at missing ⊢
      rw [contains, found, Option.isSome_some, if_pos rfl]
      apply if_neg
      intro beside
      exact missing (if_pos beside)

/-- **Whatever changes made a graph, its edges and stamps stand side by side, each stamp goes up along
an element, stands at one edge, and was given out before; and whatever changes follow, stamps go on from
there, and the stamp of an edge that is gone is refused at every source and destination.** -/
theorem stamped_run (changes : List Change) :
    (Store.empty.run changes).Stamped ∧
      (∀ later, (Store.empty.run changes).nextStamp ≤
        (Store.empty.run (changes ++ later)).nextStamp) ∧
      ∀ between later stamp, stamp ∈ (Store.empty.run changes).allStamps →
        stamp ∉ (Store.empty.run (changes ++ between)).allStamps →
          ∀ source edgeType destination,
            let left := Store.empty.run (changes ++ between ++ later)
            left.checkRemoveStamped source edgeType destination stamp =
              .error (if left.contains source then
                  .unknownEdgeStamp source edgeType destination stamp
                else .unknownElement source) := by
  have linked := (sound_run changes).toLinked
  refine ⟨(sound_run changes).stamped, fun later => ?_, ?_⟩
  · rw [run_append]
    exact ((sound_run changes).later_run later).nextStamp
  · intro between later stamp there gone source edgeType destination left
    have sound := sound_run (changes ++ between)
    have given : stamp.number < (Store.empty.run (changes ++ between)).nextStamp := by
      rw [run_append]
      exact Nat.lt_of_lt_of_le (linked.allStamps_below stamp there)
        ((sound_run changes).later_run between).nextStamp
    have reached : Later (Store.empty.run (changes ++ between)) left := by
      show Later _ (Store.empty.run (changes ++ between ++ later))
      rw [run_append _ (changes ++ between)]
      exact sound.later_run later
    have linked' : left.Linked := (sound_run (changes ++ between ++ later)).toLinked
    have absent : stamp ∉ left.allStamps := fun still =>
      gone (reached.mem_allStamps sound.toLinked linked' given still)
    exact linked'.checkRemoveStamped_of_not_mem absent source edgeType destination

/-- A root, and a method with two equal edges to it. -/
def twiceLinked : List Change :=
  [.commit (.root ⟨.ofNat 1, "demo", "demo", ""⟩),
   .commit (.newElement (.method ⟨.ofNat 2, "run"⟩) none
     (.ofDestinations .typeOf [.ofNat 1, .ofNat 1]))]

/-- The root is removed, enters again, and gets the same edge again from a commit that stops half-way:
the new edge has a new stamp, and the old one is refused. -/
theorem stamped_run_linkedAgain :
    let changes := twiceLinked ++ [.step (.remove (.ofNat 1) true)] ++
      [.commit (.root ⟨.ofNat 1, "demo", "demo", ""⟩),
       .commit (.newEdge (.ofNat 2) (.ofDestinations .typeOf [.ofNat 1, .ofNat 9]))]
    (Store.empty.run changes).edgeStamps (.ofNat 2) .typeOf = [⟨2⟩] ∧
      (Store.empty.run changes).checkRemoveStamped (.ofNat 2) .typeOf (.ofNat 1) ⟨0⟩ =
        .error (.unknownEdgeStamp (.ofNat 2) .typeOf (.ofNat 1) ⟨0⟩) := by
  intro changes
  have there : (⟨0⟩ : EdgeStamp) ∈ (Store.empty.run twiceLinked).allStamps := by decide
  have gone : (⟨0⟩ : EdgeStamp) ∉
      (Store.empty.run (twiceLinked ++ [.step (.remove (.ofNat 1) true)])).allStamps := by decide
  exact ⟨rfl, (stamped_run twiceLinked).2.2 _ _ ⟨0⟩ there gone (.ofNat 2) .typeOf (.ofNat 1)⟩

end Store

end LanguageGraph
