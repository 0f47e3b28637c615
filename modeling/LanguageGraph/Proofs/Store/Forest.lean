/-
# Proofs.Store.Forest — containment is a forest

Nothing looks for cycles when an element enters. There are none because a container stands before what it
holds (`Placed.position_lt`): to go from an element to its container is to go back in the list of
elements. So the way up ends before it has passed every element, and meets none twice
(`Placed.exists_ascends`, `Ascends.nodup`). Kinds go up with it: first from comment to comment, then
along the order of containment (`ElementKind.ladder`), since only a comment may stand in any kind.

The way down ends for the same reason. The depth that `Store.contents` is given does not show in what it
collects (`Placed.contents_eq`), and each element is collected once, on the one way that leads to it
(`forest_run`).
-/
import LanguageGraph.Proofs.Store.Dependents
import Mathlib.Data.List.Chain
import Mathlib.Logic.Relation

namespace LanguageGraph

set_option autoImplicit false

/-! ## Kinds -/

namespace ElementKind

/-- The order of containment upwards, comments apart. -/
def ladder : List ElementKind :=
  [parameter, method, clazz, library, project]

/-- The order of containment from one kind upwards. -/
def upwards (kind : ElementKind) : List ElementKind :=
  ladder.dropWhile fun other => other ≠ kind

/-- A container of anything but a comment is of the next kind. -/
theorem upwards_of_canContain {container child : ElementKind}
    (may : container.canContain child = true) (no_comment : child ≠ comment) :
    container ≠ comment ∧ child.upwards = child :: container.upwards := by
  rcases (canContain_iff container child).1 may with rfl | pair
  · exact absurd rfl no_comment
  · simp only [List.mem_cons, Prod.mk.injEq, List.not_mem_nil, or_false] at pair
    rcases pair with ⟨rfl, rfl⟩ | ⟨rfl, rfl⟩ | ⟨rfl, rfl⟩ | ⟨rfl, rfl⟩ <;>
      exact ⟨by decide, rfl⟩

theorem singleton_prefix_upwards {kind : ElementKind} (no_comment : kind ≠ comment) :
    [kind] <+: kind.upwards := by
  cases kind with
  | comment => exact absurd rfl no_comment
  | project => exact ⟨_, rfl⟩
  | library => exact ⟨_, rfl⟩
  | clazz => exact ⟨_, rfl⟩
  | method => exact ⟨_, rfl⟩
  | parameter => exact ⟨_, rfl⟩

/-- Containers of an element that is no comment are of the kinds above it, one by one. -/
theorem prefix_upwards {kind : ElementKind} (no_comment : kind ≠ comment)
    {kinds : List ElementKind}
    (nested : (kind :: kinds).IsChain fun child container => container.canContain child = true) :
    (kind :: kinds) <+: kind.upwards := by
  induction kinds generalizing kind with
  | nil => exact singleton_prefix_upwards no_comment
  | cons container kinds ih =>
      obtain ⟨may, rest⟩ := List.isChain_cons_cons.1 nested
      obtain ⟨no_comment', next⟩ := upwards_of_canContain may no_comment
      rw [next]
      exact (List.prefix_cons_inj kind).2 (ih no_comment' rest)

/-- Kinds of which each may contain the one before begin with comments and go on along the order of
containment. -/
theorem comments_then_ladder {kinds : List ElementKind}
    (nested : kinds.IsChain fun child container => container.canContain child = true) :
    ∃ comments steps, kinds = List.replicate comments comment ++ steps ∧ steps <:+: ladder := by
  induction kinds with
  | nil => exact ⟨0, [], rfl, List.nil_infix⟩
  | cons kind kinds ih =>
      by_cases is_comment : kind = comment
      · obtain ⟨comments, steps, rfl, along⟩ := ih nested.tail
        exact ⟨comments + 1, steps, by rw [is_comment]; rfl, along⟩
      · have along := (prefix_upwards is_comment nested).isInfix
        exact ⟨0, kind :: kinds, rfl, along.trans (List.dropWhile_suffix _).isInfix⟩

end ElementKind

namespace Store

def kindOf? (store : Store) (id : ElementId) : Option ElementKind :=
  (store.get? id).map Element.kind

/-- An element lies directly in a container. -/
def LiesIn (store : Store) (id container : ElementId) : Prop :=
  store.containerOf? id = some container

/-- The containers that are met on the way up from an element, until one has no container. -/
inductive Ascends (store : Store) : ElementId → List ElementId → Prop where
  | top {id : ElementId} (unheld : store.containerOf? id = none) : Ascends store id []
  | up {id container : ElementId} {above : List ElementId} (held : store.LiesIn id container)
      (rest : Ascends store container above) : Ascends store id (container :: above)

/-- Containment is a forest in which kinds are respected. -/
structure Forest (store : Store) : Prop where
  /-- A container is present, stands before what it holds, and may hold its kind. -/
  container : ∀ id container, store.containerOf? id = some container →
    ∃ parent child, store.get? container = some parent ∧ store.get? id = some child ∧
      parent.kind.canContain child.kind = true ∧ [parent, child].Sublist store.elements
  /-- The way up ends in less steps than there are elements and meets none twice; the kinds are
  comments, if any, and then consecutive ones. -/
  ascends : ∀ id, store.contains id = true →
    ∃ above, store.Ascends id above ∧ (id :: above).Nodup ∧ above.length < store.size ∧
      ∃ comments steps,
        (id :: above).map store.kindOf? = (List.replicate comments .comment ++ steps).map some ∧
          steps <:+: ElementKind.ladder
  /-- The way down ends. -/
  descends : WellFounded fun child container => child ∈ store.childrenOf container
  /-- To collect the contents of an element is to collect those of all it holds, and then itself. -/
  contents_eq : ∀ id, store.contains id = true →
    store.contents id = (store.childrenOf id).flatMap store.contents ++ [id]
  /-- This gives the element and what lies in it, directly or not, each once. -/
  contents : ∀ id, store.contains id = true →
    (store.contents id).Nodup ∧
      ∀ other, other ∈ store.contents id ↔ Relation.ReflTransGen store.LiesIn other id

variable {store : Store} {id container other : ElementId}

/-! ## One step up -/

theorem Placed.mem_childrenOf_iff (placed : store.Placed) :
    id ∈ store.childrenOf container ↔ store.LiesIn id container :=
  ⟨placed.containerOf?_of_mem_childrenOf, mem_childrenOf_of_containerOf? placed⟩

theorem Placed.position_lt_of_liesIn (placed : store.Placed) (held : store.LiesIn id container) :
    store.position container < store.position id :=
  placed.position_lt (placed.mem_childrenOf_iff.2 held)

/-- A container is present, stands before what it holds, and may hold its kind. -/
theorem Placed.parent_of_liesIn (placed : store.Placed) (held : store.LiesIn id container) :
    ∃ parent child, store.get? container = some parent ∧ store.get? id = some child ∧
      parent.kind.canContain child.kind = true ∧ [parent, child].Sublist store.elements := by
  obtain ⟨slot, found, holder⟩ := Option.bind_eq_some_iff.1 held
  have member : (slot.element, some container) ∈ store.places := by
    rw [← holder]
    exact List.mem_map_of_mem (mem_of_slot? found)
  obtain ⟨before, after, split⟩ := List.append_of_mem member
  obtain ⟨parent, early, same, may⟩ := placed.nested before slot.element container after split
  have there : parent ∈ store.places := by
    rw [split]
    exact List.mem_append_left _ early
  refine ⟨parent.1, slot.element, ?_, ?_, may, ?_⟩
  · exact (get?_eq_some_iff placed).2 ⟨parent, there, rfl, same⟩
  · exact (get?_eq_some_iff placed).2 ⟨_, member, rfl, id_of_slot? found⟩
  · rw [elements_eq_map, split, List.map_append, List.map_cons]
    exact (List.singleton_sublist.2 (List.mem_map_of_mem early)).append
      (List.singleton_sublist.2 List.mem_cons_self)

theorem kindOf?_of_contains (there : store.contains id = true) :
    ∃ kind, store.kindOf? id = some kind := by
  obtain ⟨slot, found⟩ := slot?_of_contains there
  exact ⟨slot.element.kind, by rw [kindOf?, get?, found]; rfl⟩

theorem Placed.kinds_of_liesIn (placed : store.Placed) (held : store.LiesIn id container) :
    ∃ kind kind', store.kindOf? id = some kind ∧ store.kindOf? container = some kind' ∧
      kind'.canContain kind = true := by
  obtain ⟨parent, child, found, found', may, -⟩ := placed.parent_of_liesIn held
  exact ⟨child.kind, parent.kind, by rw [kindOf?, found']; rfl, by rw [kindOf?, found]; rfl, may⟩

/-! ## The way up -/

/-- The way up from an element ends, since each step goes back in the list of elements. -/
theorem Placed.exists_ascends (placed : store.Placed) (id : ElementId) :
    ∃ above, store.Ascends id above := by
  induction start : store.position id using Nat.strong_induction_on generalizing id with
  | _ position ih =>
      cases held : store.containerOf? id with
      | none => exact ⟨[], .top held⟩
      | some container =>
          have back := placed.position_lt_of_liesIn held
          rw [start] at back
          obtain ⟨above, rest⟩ := ih _ back container rfl
          exact ⟨container :: above, .up held rest⟩

namespace Ascends

variable {above : List ElementId}

/-- Whatever is met on the way up is present and stands before the element. -/
theorem earlier (ascends : store.Ascends id above) (placed : store.Placed) :
    ∀ other ∈ above, store.contains other = true ∧ store.position other < store.position id := by
  induction ascends with
  | top unheld =>
      intro other member
      cases member
  | @up id container above held rest ih =>
      have back := placed.position_lt_of_liesIn held
      intro other member
      rcases List.mem_cons.1 member with rfl | later
      · exact ⟨placed.contains_container (placed.mem_childrenOf_iff.2 held), back⟩
      · obtain ⟨there, earlier⟩ := ih other later
        exact ⟨there, Nat.lt_trans earlier back⟩

theorem nodup (ascends : store.Ascends id above) (placed : store.Placed) : (id :: above).Nodup := by
  induction ascends with
  | top unheld => exact List.nodup_singleton _
  | @up id container above held rest ih =>
      refine List.nodup_cons.2 ⟨?_, ih⟩
      intro again
      exact absurd ((Ascends.up held rest).earlier placed id again).2 (Nat.lt_irrefl _)

theorem length_lt (ascends : store.Ascends id above) (placed : store.Placed)
    (there : store.contains id = true) : above.length < store.size := by
  have present : (id :: above) ⊆ idsOf store.places := by
    intro other member
    rcases List.mem_cons.1 member with rfl | met
    · exact contains_iff_ids.1 there
    · exact contains_iff_ids.1 (ascends.earlier placed other met).1
  have fits := (List.subperm_of_subset (ascends.nodup placed) present).length_le
  rwa [length_ids, List.length_cons] at fits

/-- Each kind on the way up may contain the one before. -/
theorem kinds (ascends : store.Ascends id above) (placed : store.Placed)
    (there : store.contains id = true) :
    ∃ kinds : List ElementKind, (id :: above).map store.kindOf? = kinds.map some ∧
      kinds.IsChain fun child container => container.canContain child = true := by
  induction ascends with
  | top unheld =>
      obtain ⟨kind, found⟩ := kindOf?_of_contains there
      exact ⟨[kind], by rw [List.map_singleton, found]; rfl, List.isChain_singleton kind⟩
  | @up id container above held rest ih =>
      obtain ⟨kind, kind', found, found', may⟩ := placed.kinds_of_liesIn held
      obtain ⟨kinds, read, chain⟩ :=
        ih (placed.contains_container (placed.mem_childrenOf_iff.2 held))
      cases kinds with
      | nil => cases read
      | cons first kinds =>
          have same : some kind' = some first := found'.symm.trans (List.cons.inj read).1
          rw [Option.some.inj same] at may
          refine ⟨kind :: first :: kinds, ?_, List.isChain_cons_cons.2 ⟨may, chain⟩⟩
          rw [List.map_cons, read, found]
          rfl

/-- The way up passes comments, and then goes along the order of containment. -/
theorem comments_then_ladder (ascends : store.Ascends id above) (placed : store.Placed)
    (there : store.contains id = true) :
    ∃ comments steps,
      (id :: above).map store.kindOf? = (List.replicate comments .comment ++ steps).map some ∧
        steps <:+: ElementKind.ladder := by
  obtain ⟨kinds, read, chain⟩ := ascends.kinds placed there
  obtain ⟨comments, steps, rfl, along⟩ := ElementKind.comments_then_ladder chain
  exact ⟨comments, steps, read, along⟩

end Ascends

/-! ## The way down -/

/-- No element has an endless way down, since each step goes on in the list of elements. -/
theorem Placed.descends (placed : store.Placed) :
    WellFounded fun child container => child ∈ store.childrenOf container := by
  refine Subrelation.wf ?_ (measure fun id => store.size - store.position id).wf
  intro child container held
  have behind := placed.position_lt held
  have within_size := position_lt_size (placed.contains_child held)
  show store.size - store.position child < store.size - store.position container
  omega

/-- A depth that reaches over all later elements is as good as any other. -/
theorem Placed.contentsWithin_eq (placed : store.Placed) :
    ∀ depth depth' id, store.contains id = true → store.size - store.position id ≤ depth →
      store.size - store.position id ≤ depth' →
        store.contentsWithin depth id = store.contentsWithin depth' id := by
  intro depth
  induction depth with
  | zero =>
      intro depth' id there deep
      have := position_lt_size there
      omega
  | succ depth ih =>
      intro depth' id there deep deep'
      have within_size := position_lt_size there
      obtain ⟨depth', rfl⟩ : ∃ less, depth' = less + 1 := ⟨depth' - 1, by omega⟩
      rw [contentsWithin, contentsWithin]
      congr 1
      apply List.flatMap_congr
      intro child held
      have behind := placed.position_lt held
      exact ih depth' child (placed.contains_child held) (by omega) (by omega)

/-- The contents of an element are those of all that it holds, and the element. -/
theorem Placed.contents_eq (placed : store.Placed) (there : store.contains id = true) :
    store.contents id = (store.childrenOf id).flatMap store.contents ++ [id] := by
  have within_size := position_lt_size there
  obtain ⟨depth, size⟩ : ∃ depth, store.size = depth + 1 := ⟨store.size - 1, by omega⟩
  rw [contents, size, contentsWithin]
  congr 1
  apply List.flatMap_congr
  intro child held
  have behind := placed.position_lt held
  exact placed.contentsWithin_eq _ _ child (placed.contains_child held) (by omega) (Nat.sub_le _ _)

/-- What lies in an element does not stand before it. -/
theorem Placed.position_le (placed : store.Placed)
    (inside : Relation.ReflTransGen store.LiesIn other id) :
    store.position id ≤ store.position other := by
  induction inside with
  | refl => exact Nat.le_refl _
  | tail _ held ih => exact Nat.le_trans (Nat.le_of_lt (placed.position_lt_of_liesIn held)) ih

theorem Placed.mem_contents_iff (placed : store.Placed) (there : store.contains id = true) :
    other ∈ store.contents id ↔ Relation.ReflTransGen store.LiesIn other id := by
  induction id using placed.descends.induction with
  | _ id ih =>
      rw [placed.contents_eq there, List.mem_append, List.mem_flatMap, List.mem_singleton,
        Relation.ReflTransGen.cases_tail_iff, or_comm, eq_comm]
      apply or_congr_right
      apply exists_congr
      intro child
      rw [placed.mem_childrenOf_iff, and_comm]
      apply and_congr_left
      intro held
      have listed := placed.mem_childrenOf_iff.2 held
      exact ih child listed (placed.contains_child listed)

/-- Two elements that are held together do not lie in each other. -/
theorem Placed.eq_of_siblings (placed : store.Placed) {child sibling : ElementId}
    (held : store.LiesIn child container) (held' : store.LiesIn sibling container)
    (inside : Relation.ReflTransGen store.LiesIn child sibling) : child = sibling := by
  rcases Relation.ReflTransGen.cases_head inside with same | ⟨next, step, rest⟩
  · exact same
  · -- The only way up from the one leads to their container, which stands before the other.
    have leads : next = container := Option.some.inj (step.symm.trans held)
    rw [leads] at rest
    exact absurd (placed.position_le rest)
      (Nat.not_le_of_lt (placed.position_lt_of_liesIn held'))

/-- What two siblings contain is different. -/
theorem Placed.disjoint_contents (placed : store.Placed) {child sibling : ElementId}
    (held : store.LiesIn child container) (held' : store.LiesIn sibling container)
    (unlike : child ≠ sibling) : (store.contents child).Disjoint (store.contents sibling) := by
  intro other first second
  have there := placed.contains_child (placed.mem_childrenOf_iff.2 held)
  have there' := placed.contains_child (placed.mem_childrenOf_iff.2 held')
  have one_container : Relator.RightUnique store.LiesIn := by
    intro id container container' up up'
    exact Option.some.inj (up.symm.trans up')
  rcases Relation.ReflTransGen.total_of_right_unique one_container
    ((placed.mem_contents_iff there).1 first) ((placed.mem_contents_iff there').1 second) with
    inside | inside
  · exact unlike (placed.eq_of_siblings held held' inside)
  · exact unlike (placed.eq_of_siblings held' held inside).symm

theorem Sound.nodup_contents (sound : store.Sound) (there : store.contains id = true) :
    (store.contents id).Nodup := by
  have placed := sound.toPlaced
  induction id using placed.descends.induction with
  | _ id ih =>
      rw [placed.contents_eq there, List.nodup_append']
      refine ⟨List.nodup_flatMap.2 ⟨?_, ?_⟩, List.nodup_singleton id, ?_⟩
      · exact fun child held => ih child held (placed.contains_child held)
      · refine (sound.indexed.children_nodup id).imp_of_mem ?_
        intro child sibling held held' unlike
        exact placed.disjoint_contents (placed.mem_childrenOf_iff.1 held)
          (placed.mem_childrenOf_iff.1 held') unlike
      · intro other below is
        obtain ⟨child, held, inside⟩ := List.mem_flatMap.1 below
        rw [List.mem_singleton.1 is, placed.mem_contents_iff (placed.contains_child held)] at inside
        exact absurd (placed.position_le inside) (Nat.not_le_of_lt (placed.position_lt held))

/-! ## All of it -/

theorem Sound.forest (sound : store.Sound) : store.Forest where
  container _ _ held := sound.toPlaced.parent_of_liesIn held
  ascends := by
    intro id there
    obtain ⟨above, ascends⟩ := sound.toPlaced.exists_ascends id
    exact ⟨above, ascends, ascends.nodup sound.toPlaced, ascends.length_lt sound.toPlaced there,
      ascends.comments_then_ladder sound.toPlaced there⟩
  descends := sound.toPlaced.descends
  contents_eq _ there := sound.toPlaced.contents_eq there
  contents _ there := ⟨sound.nodup_contents there, fun _ => sound.toPlaced.mem_contents_iff there⟩

/-- **Whatever changes made a graph, every container is present, stands before what it holds and may hold
it; the way up from an element ends at one without a container, meets none twice, and passes comments and
then consecutive kinds; and the contents of an element are collected, each once.** -/
theorem forest_run (changes : List Change) : (Store.empty.run changes).Forest :=
  (sound_run changes).forest

end Store

end LanguageGraph
