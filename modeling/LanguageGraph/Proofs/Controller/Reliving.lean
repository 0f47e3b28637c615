/-
# Proofs.Controller.Reliving — replaying is making the calls again

Entries that are to be replayed may come from anywhere. Each one names a call: to submit its operation,
or to undo the entry it says it undoes. Replaying accepts a list of entries exactly when these calls are
accepted one after the other, and each undoing turns out to be the operation that its entry shows
(`Lived`). Of an entry it reads the operation, the author and what is undone, and nothing else; so
numbers, warnings, stamps and times may say what they like (`replay_eq_lived`).

Both ways of going through the entries ask the same of a controller (`Admits`), and controllers that
agree in all but the times of their histories (`Echoes`) admit the same entries. To replay the same
deeds again, on other occasions, comes to the same as before (`SameFate`), up to the one thing in which
two checks may differ: a refusal for want of edges need not name the same edge (`replay_missingEdges`).
-/
import LanguageGraph.Proofs.Controller.Echo

namespace LanguageGraph

set_option autoImplicit false

/-- The call that an entry says it stems from. -/
def HistoryEntry.call (entry : HistoryEntry) (now : Occasion) : Call :=
  match entry.compensates with
  | none => .submit now entry.operation entry.author
  | some target => .compensate now target entry.author

namespace Controller

/-- The call that an entry stems from is accepted, and if it undoes another entry, then by the
operation that the entry shows. -/
structure Relives (controller : Controller) (now : Occasion) (entry : HistoryEntry) : Prop where
  accepted : ∃ applied, (controller.call (entry.call now)).result = .ok applied
  undoes : ∀ target, entry.compensates = some target →
    ∃ appended, (controller.call (entry.call now)).controller.history =
        controller.history ++ [appended] ∧
      appended.operation = entry.operation

/-- The calls that some entries stem from lead from one controller to another, whenever they are made. -/
inductive Lived : Controller → List HistoryEntry → Controller → Prop where
  | nil (controller : Controller) : Lived controller [] controller
  | cons {controller live : Controller} {entry : HistoryEntry} {entries : List HistoryEntry}
      (now : Occasion) (relives : controller.Relives now entry)
      (rest : Lived (controller.call (entry.call now)).controller entries live) :
      Lived controller (entry :: entries) live

/-- What an entry asks of the controller to whose history it is to be appended. -/
structure Admits (controller : Controller) (entry : HistoryEntry) : Prop where
  undoes : ∀ target, entry.compensates = some target →
    controller.compensationFor target = .ok entry.operation
  checked : ∀ order, controller.check order entry.operation = .ok ()

/-- Two replays of the same deeds from one controller, the first one told by a clock. Both come to the
same, except that both may stop at one entry with refusals that name different missing edges. -/
inductive SameFate (clock : Nat → Occasion) (start : Controller) (entries : List HistoryEntry) :
    Except Refusal Controller × List Event → Except Refusal Controller × List Event → Prop where
  | same {result result' : Except Refusal Controller} (events : List Event)
      (untimed : result'.map untimed = result.map untimed) :
      SameFate clock start entries (result, events) (result', events)
  | refused (before : List HistoryEntry) (entry : HistoryEntry) (after : List HistoryEntry)
      {reached : Controller} {refusal refusal' : Refusal} (events : List Event)
      (split : entries = before ++ entry :: after)
      (reaches : (replayFrom clock start before).1 = .ok reached)
      (verdict : entry.operation.SameVerdict reached.store (.error refusal) (.error refusal')) :
      SameFate clock start entries
        (.error refusal, events ++ [.rejected entry.operation refusal])
        (.error refusal', events ++ [.rejected entry.operation refusal'])

variable {controller first second : Controller} {config : Config} {clock : Nat → Occasion}
  {now : Occasion} {entry : HistoryEntry}

/-! ## What an entry asks -/

theorem Admits.call (admits : controller.Admits entry) (sound : controller.store.Sound)
    (now : Occasion) :
    controller.call (entry.call now) =
      ⟨.ok ⟨controller.history.length + 1, warningsOf entry.operation⟩,
        controller.grow now entry.operation entry.author entry.compensates,
        eventsOf (controller.history.length + 1) entry.operation entry.author⟩ := by
  rw [HistoryEntry.call, ← record_of_check sound (admits.checked now.order)]
  cases is : entry.compensates with
  | none => rfl
  | some target =>
      show controller.compensate now target entry.author = _
      rw [compensate, admits.undoes target is]

theorem admits_of_relives (sound : controller.store.Sound) (relives : controller.Relives now entry) :
    controller.Admits entry := by
  obtain ⟨⟨applied, answer⟩, appends⟩ := relives
  rw [HistoryEntry.call] at answer appends
  cases is : entry.compensates with
  | none =>
      simp only [is] at answer
      constructor
      · intro target undoes
        rw [is] at undoes
        cases undoes
      · rcases record_cases sound now entry.operation entry.author none with
          ⟨checked, -, -⟩ | ⟨-, refusal, -, refused⟩
        · exact check_of_order checked
        · exact nomatch refused.symm.trans answer
  | some target =>
      simp only [is] at answer appends
      obtain ⟨inverse, allowed, checked⟩ := (compensate_accepted_iff sound now.order).1
        ⟨applied, answer⟩
      obtain ⟨appended, longer, shown⟩ := appends target rfl
      -- The entry that was appended shows the inverse that the controller itself made up.
      have next : (controller.compensate now target entry.author).controller =
          controller.grow now inverse entry.author (some target) :=
        compensate_of_checked sound allowed checked
      have same : inverse = entry.operation := by
        have history := congrArg Controller.history next
        have last := List.append_cancel_left (longer.symm.trans history)
        rw [← shown, List.singleton_inj.1 last]
        rfl
      subst same
      constructor
      · intro target' undoes
        rw [is] at undoes
        cases undoes
        exact allowed
      · exact check_of_order checked

theorem relives_of_admits (sound : controller.store.Sound) (admits : controller.Admits entry)
    (now : Occasion) : controller.Relives now entry := by
  constructor
  · rw [admits.call sound now]
    exact ⟨_, rfl⟩
  · intro target _
    rw [admits.call sound now]
    exact ⟨controller.entryFor now entry.operation entry.author entry.compensates, rfl, rfl⟩

/-- An entry that is admitted is replayed by the call that it stems from. -/
theorem Admits.replayEntry (admits : controller.Admits entry) (sound : controller.store.Sound)
    (now : Occasion) :
    controller.replayEntry now entry = controller.call (entry.call now) := by
  rw [replayEntry_eq_record now admits.undoes, record_of_check sound (admits.checked now.order),
    admits.call sound now]

theorem Admits.sound_replayEntry (admits : controller.Admits entry) (sound : controller.store.Sound)
    (now : Occasion) : (controller.replayEntry now entry).controller.store.Sound := by
  rw [admits.replayEntry sound, admits.call sound]
  exact sound.perform entry.operation.steps

theorem admits_of_replayEntry (sound : controller.store.Sound) {applied : Applied}
    (answer : (controller.replayEntry now entry).result = .ok applied) :
    controller.Admits entry := by
  have undoes : ∀ target, entry.compensates = some target →
      controller.compensationFor target = .ok entry.operation := by
    intro target is
    rw [Controller.replayEntry, is] at answer
    cases allowed : controller.compensationFor target with
    | error refusal =>
        simp only [allowed] at answer
        cases answer
    | ok inverse =>
        simp only [allowed] at answer
        split at answer
        · rename_i same
          rw [same]
        · cases answer
  rw [replayEntry_eq_record now undoes] at answer
  rcases record_cases sound now entry.operation entry.author entry.compensates with
    ⟨checked, -, -⟩ | ⟨-, refusal, -, refused⟩
  · exact ⟨undoes, check_of_order checked⟩
  · rw [refused] at answer
    cases answer

theorem Admits.grown (admits : controller.Admits entry) (grown : Grown config controller)
    (now : Occasion) :
    Grown config (controller.grow now entry.operation entry.author entry.compensates) :=
  .grow now entry.author grown admits.undoes (admits.checked now.order)

/-- Replaying goes on from an entry that is admitted. -/
theorem Admits.replayFrom (admits : controller.Admits entry) (sound : controller.store.Sound)
    (clock : Nat → Occasion) (entries : List HistoryEntry) :
    (replayFrom clock controller (entry :: entries)).1 =
      (replayFrom clock (controller.grow (clock (controller.history.length + 1)) entry.operation
        entry.author entry.compensates) entries).1 := by
  rw [Controller.replayFrom, admits.replayEntry sound, admits.call sound]

theorem Echoes.admits (echoes : Echoes first second) (admits : first.Admits entry) :
    second.Admits entry where
  undoes target is := (echoes.compensationFor_eq target).trans (admits.undoes target is)
  checked order := (echoes.check_eq order entry.operation).trans (admits.checked order)

/-! ## Lists of entries -/

/-- What is replayed was lived, on the occasions that the clock tells. -/
theorem Grown.lived_of_replayFrom (grown : Grown config controller) {entries : List HistoryEntry}
    {replayed : Controller} (done : (replayFrom clock controller entries).1 = .ok replayed) :
    Lived controller entries replayed := by
  induction entries generalizing controller with
  | nil =>
      cases done
      exact .nil _
  | cons entry entries ih =>
      cases answer :
          (controller.replayEntry (clock (controller.history.length + 1)) entry).result with
      | error refusal =>
          rw [replayFrom, answer] at done
          cases done
      | ok applied =>
          have admits := admits_of_replayEntry grown.sound answer
          rw [admits.replayFrom grown.sound] at done
          refine .cons (clock (controller.history.length + 1))
            (relives_of_admits grown.sound admits _) ?_
          rw [admits.call grown.sound]
          exact ih (admits.grown grown _) done

/-- What is lived can be replayed, also on other occasions. -/
theorem Lived.replayFrom {live : Controller} {entries : List HistoryEntry}
    (lived : Lived first entries live) (grown : Grown config first) (grown' : Grown config second)
    (echoes : Echoes first second) (clock : Nat → Occasion) :
    ∃ replayed, (replayFrom clock second entries).1 = .ok replayed ∧ Echoes live replayed := by
  induction lived generalizing second with
  | nil controller => exact ⟨second, rfl, echoes⟩
  | @cons controller live entry entries now relives rest ih =>
      have admits := admits_of_relives grown.sound relives
      have admits' := echoes.admits admits
      rw [admits'.replayFrom grown'.sound]
      rw [admits.call grown.sound] at ih
      exact ih (admits.grown grown now) (admits'.grown grown' _)
        (echoes.grow now _ entry.operation entry.author entry.compensates)

theorem Lived.calls {live : Controller} {entries : List HistoryEntry}
    (lived : Lived controller entries live) : ∃ calls, controller.run calls = live := by
  induction lived with
  | nil controller => exact ⟨[], rfl⟩
  | @cons controller live entry entries now relives rest ih =>
      obtain ⟨calls, reached⟩ := ih
      exact ⟨entry.call now :: calls, reached⟩

/-- Under settings that reject orphans no entry carries a warning. -/
theorem Grown.unwarned (grown : Grown config controller) (strict : config.rejectOrphans = true) :
    ∀ entry ∈ controller.history, entry.warnings = [] := by
  intro entry member
  rw [grown.warned entry member, warningsOf, grown.unorphaned strict entry member]

/-- The history of a controller leads back to it under its own settings. -/
theorem Grown.replays_itself (grown : Grown config controller) (clock : Nat → Occasion) :
    ∃ again, (replay clock controller.history config).1 = .ok again ∧
      again.untimed = controller.untimed := by
  cases grown.replayed clock config with
  | whole again reached mirrors settings sound quiet =>
      have echoes : Echoes controller again := ⟨mirrors, settings.trans grown.config_eq.symm⟩
      exact ⟨again, reached, echoes.untimed_eq⟩
  | stopped before entry after id strict split quiet warned introduced refused =>
      have unwarned := grown.unwarned strict entry (split ▸ List.mem_append_cons_self)
      rw [warned] at unwarned
      cases unwarned

/-- An accepted entry in front leaves the fate of the others as it is. -/
theorem SameFate.cons {entries : List HistoryEntry} {applied : Applied}
    (answer : (first.replayEntry (clock (first.history.length + 1)) entry).result = .ok applied)
    {fate fate' : Except Refusal Controller × List Event}
    (same : SameFate clock (first.replayEntry (clock (first.history.length + 1)) entry).controller
      entries fate fate') (events : List Event) :
    SameFate clock first (entry :: entries) (fate.1, events ++ fate.2) (fate'.1, events ++ fate'.2) := by
  cases same with
  | same later untimed => exact .same (events ++ later) untimed
  | refused before other after later split reaches verdict =>
      rw [← List.append_assoc, ← List.append_assoc]
      refine .refused (entry :: before) other after (events ++ later) (by rw [split]; rfl) ?_ verdict
      rw [Controller.replayFrom, answer]
      exact reaches

/-- Entries that show the same deeds are replayed in the same way, on whatever occasions. -/
theorem Echoes.replayFrom (echoes : Echoes first second) (sound : first.store.Sound)
    (clock clock' : Nat → Occasion) {entries entries' : List HistoryEntry}
    (deeds : entries'.map HistoryEntry.deed = entries.map HistoryEntry.deed) :
    SameFate clock first entries (replayFrom clock first entries)
      (replayFrom clock' second entries') := by
  induction entries generalizing entries' first second with
  | nil =>
      rw [List.map_eq_nil_iff.1 deeds, Controller.replayFrom, Controller.replayFrom,
        echoes.length_history]
      exact .same _ (congrArg Except.ok echoes.untimed_eq)
  | cons entry entries ih =>
      obtain ⟨entry', rest, rfl, deed, others⟩ := List.map_eq_cons_iff.1 deeds
      rw [Controller.replayFrom, Controller.replayFrom]
      have echoed := echoes.replayEntry sound (clock (first.history.length + 1))
        (clock' (second.history.length + 1)) deed
      generalize outcome' : second.replayEntry (clock' (second.history.length + 1)) entry' = next'
        at echoed
      generalize outcome : first.replayEntry (clock (first.history.length + 1)) entry = next
        at echoed
      cases echoed with
      | @same next next' result events echoes' =>
          cases result with
          | error refusal => exact .same events rfl
          | ok applied =>
              have answer : (first.replayEntry (clock (first.history.length + 1)) entry).result =
                  .ok applied := by rw [outcome]
              have admits := admits_of_replayEntry sound answer
              have sound' := admits.sound_replayEntry sound (clock (first.history.length + 1))
              rw [outcome] at sound'
              exact .cons answer (by rw [outcome]; exact ih echoes' sound' others) events
      | refused verdict _ => exact .refused [] entry entries [] rfl rfl verdict

/-- With one clock, nothing but the deeds matters. -/
theorem replayFrom_of_deeds (controller : Controller) {entries entries' : List HistoryEntry}
    (deeds : entries'.map HistoryEntry.deed = entries.map HistoryEntry.deed) :
    replayFrom clock controller entries' = replayFrom clock controller entries := by
  induction entries generalizing entries' controller with
  | nil => rw [List.map_eq_nil_iff.1 deeds]
  | cons entry entries ih =>
      obtain ⟨entry', rest, rfl, deed, others⟩ := List.map_eq_cons_iff.1 deeds
      obtain ⟨operation, author, compensates⟩ : entry'.operation = entry.operation ∧
          entry'.author = entry.author ∧ entry'.compensates = entry.compensates := by
        simpa [HistoryEntry.deed] using deed
      have same : controller.replayEntry (clock (controller.history.length + 1)) entry' =
          controller.replayEntry (clock (controller.history.length + 1)) entry := by
        rw [Controller.replayEntry, Controller.replayEntry, operation, author, compensates]
      rw [Controller.replayFrom, Controller.replayFrom, same]
      simp only [ih _ others]

/-- **A list of entries, wherever it comes from, is replayed exactly when the calls that its entries
name are accepted one after the other and each undoing is the one that its entry shows. What comes of it
is what these calls make, but for the times; it is a controller like any other, and its own history
leads back to it. And two lists that show the same deeds come to the same, whatever else they say and
whenever they are replayed, except for which missing edge a removal without stamps is refused.** -/
theorem replay_eq_lived (config : Config) (clock : Nat → Occasion) (entries : List HistoryEntry) :
    ((∃ replayed, (replay clock entries config).1 = .ok replayed) ↔
        ∃ live, Lived (Controller.new config) entries live) ∧
      (∀ replayed, (replay clock entries config).1 = .ok replayed →
        (∀ live, Lived (Controller.new config) entries live → replayed.untimed = live.untimed) ∧
        (∃ calls, (Controller.new config).run calls = replayed) ∧
        ∀ clock', ∃ again, (replay clock' replayed.history config).1 = .ok again ∧
          again.untimed = replayed.untimed) ∧
      ∀ entries', entries'.map HistoryEntry.deed = entries.map HistoryEntry.deed →
        replay clock entries' config = replay clock entries config ∧
        ∀ clock', SameFate clock (Controller.new config) entries (replay clock entries config)
          (replay clock' entries' config) := by
  have fresh : Grown config (Controller.new config) := .new
  have again_lived : ∀ live, Lived (Controller.new config) entries live →
      ∃ replayed, (replay clock entries config).1 = .ok replayed ∧ Echoes live replayed :=
    fun live lived => lived.replayFrom fresh fresh (.refl _) clock
  refine ⟨⟨?_, ?_⟩, ?_, ?_⟩
  · rintro ⟨replayed, done⟩
    exact ⟨replayed, fresh.lived_of_replayFrom done⟩
  · rintro ⟨live, lived⟩
    obtain ⟨replayed, done, -⟩ := again_lived live lived
    exact ⟨replayed, done⟩
  · intro replayed done
    obtain ⟨calls, reached⟩ := (fresh.lived_of_replayFrom done).calls
    have grown : Grown config replayed := reached ▸ grown_run config calls
    refine ⟨?_, ⟨calls, reached⟩, grown.replays_itself⟩
    intro live lived
    obtain ⟨replayed', done', echoes⟩ := again_lived live lived
    rw [done] at done'
    cases done'
    exact echoes.untimed_eq
  · intro entries' deeds
    exact ⟨replayFrom_of_deeds _ deeds, fun clock' =>
      (Echoes.refl _).replayFrom Store.sound_empty clock clock' deeds⟩

/-- A history in which each number, warning and stamp is made up. -/
def forgedEntries : List HistoryEntry :=
  ((Controller.new .default).run undoneOrphan).history.map fun entry =>
    { entry with sequence := 7, warnings := [.orphanedElement (.ofNat 9)], edgeStamps := [⟨5⟩] }

/-- The forged history leads where the true one leads. -/
theorem replay_eq_lived_forged :
    (replay (fun _ => .epoch) forgedEntries .default).1 =
        .ok ((Controller.new .default).run undoneOrphan) ∧
      ∃ live, Lived (Controller.new .default) forgedEntries live ∧
        ((Controller.new .default).run undoneOrphan).untimed = live.untimed := by
  obtain ⟨accepted, outcome, -⟩ := replay_eq_lived .default (fun _ => .epoch) forgedEntries
  have done : (replay (fun _ => .epoch) forgedEntries .default).1 =
      .ok ((Controller.new .default).run undoneOrphan) := rfl
  obtain ⟨live, lived⟩ := accepted.1 ⟨_, done⟩
  exact ⟨done, live, lived, (outcome _ done).1 live lived⟩

/-- A root, and the removal of two edges that it does not have. -/
def missingEdges : List HistoryEntry :=
  [⟨⟨1, .root ⟨.ofNat 1, "demo", "demo", ""⟩, "someone", [], none, []⟩, .epoch⟩,
   ⟨⟨2, .removeEdge (.ofNat 1) (.ofDestinations .typeOf [.ofNat 2, .ofNat 3]) [], "someone", [], none,
      []⟩, .epoch⟩]

/-- The removal is refused each time it is replayed, but not each time for the same edge. -/
theorem replay_missingEdges :
    (replay (fun _ => .epoch) missingEdges .default).1 =
        .error (.unknownEdge (.ofNat 1) .typeOf (.ofNat 2)) ∧
      (replay (fun _ => ⟨.epoch, .backwards⟩) missingEdges .default).1 =
        .error (.unknownEdge (.ofNat 1) .typeOf (.ofNat 3)) ∧
      Refusal.unknownEdge (.ofNat 1) .typeOf (.ofNat 2) ≠ .unknownEdge (.ofNat 1) .typeOf (.ofNat 3) :=
  ⟨rfl, rfl, by decide⟩

end Controller

end LanguageGraph
