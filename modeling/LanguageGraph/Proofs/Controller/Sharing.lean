/-
# Proofs.Controller.Sharing — clients that share a controller

Each client has a list of requests, and whenever a client gets its turn its next request is served whole
(`Session.turn`). Which client that is, is left open: a schedule names the clients in any order, with the
occasions on which they are served (`Session.play`), so that every way to interleave their requests is
the play of some schedule.

Whatever was answered on the way was the answer of a controller that calls made, whose history is the
first part of the history there is now (`Moment`). Later turns only make the history longer, so a moment
stays one (`Moment.mono`), and what is known of a controller and its replay is known of each moment: which
entry a number stands for, what a client was shown of the history, and of which entries a snapshot is the
graph (`serialised_play`).
-/
import LanguageGraph.Controller.Request
import LanguageGraph.Proofs.Controller.Log
import LanguageGraph.Proofs.Controller.Reliving

namespace LanguageGraph

set_option autoImplicit false

/-- The number with which a change was answered, when it was accepted. -/
def Response.number? : Response → Option Nat
  | .outcome (.ok applied) => some applied.sequence
  | _ => none

/-- A response is of the kind that a request asks for. -/
def Response.Answers (response : Response) : Request → Prop
  | .apply _ | .submit _ _ | .compensate _ _ => ∃ result, response = .outcome result
  | .element _ => ∃ element, response = .element element
  | .edges _ _ => ∃ destinations, response = .edges destinations
  | .history => ∃ entries, response = .history entries
  | .snapshot => ∃ store, response = .snapshot store

/-- A client's request and the answer. -/
structure Exchange (ι : Type) where
  client : ι
  request : Request
  response : Response

def Exchange.number? {ι : Type} (exchange : Exchange ι) : Option Nat :=
  exchange.response.number?

/-- Clients that share a controller: what each has still to ask, and what was answered, in the order of
service. -/
structure Session (ι : Type) where
  controller : Controller
  pending : ι → List Request
  exchanges : List (Exchange ι)

/-- An entry shows the request that it stems from: its author and its operation, which for an undoing is
the inverse of the entry that is undone. -/
def Controller.Shows (controller : Controller) (entry : HistoryEntry) : Request → Prop
  | .apply operation => entry.deed = (operation, controller.config.defaultAuthor, none)
  | .submit operation author => entry.deed = (operation, author, none)
  | .compensate sequence author => ∃ undone inverse, controller.entryAt? sequence = some undone ∧
      undone.inverse? = some inverse ∧ entry.deed = (inverse, author, some sequence)
  | _ => False

namespace Session

variable {ι : Type}

def start (config : Config) (programs : ι → List Request) : Session ι :=
  ⟨.new config, programs, []⟩

/-- How many changes were accepted among some exchanges. -/
def accepted (exchanges : List (Exchange ι)) : Nat :=
  (exchanges.filterMap Exchange.number?).length

variable [DecidableEq ι]

/-- Serve the next request of a client, if it has one. -/
def turn (session : Session ι) (now : Occasion) (client : ι) : Session ι :=
  match session.pending client with
  | [] => session
  | request :: rest =>
      let (response, controller, _) := session.controller.serve now request
      { controller := controller
        pending := Function.update session.pending client rest
        exchanges := session.exchanges ++ [⟨client, request, response⟩] }

/-- Serve clients in the order in which a schedule names them. -/
def play (session : Session ι) (schedule : List (Occasion × ι)) : Session ι :=
  schedule.foldl (fun session next => session.turn next.1 next.2) session

def exchangesOf (session : Session ι) (client : ι) : List (Exchange ι) :=
  session.exchanges.filter fun exchange => exchange.client = client

/-- Requests of several clients were served one after the other. -/
structure Serialised (config : Config) (programs : ι → List Request) (session : Session ι) : Prop where
  /-- Each client was served what it asks, in its own order. -/
  order : ∀ client, (session.exchangesOf client).map Exchange.request ++ session.pending client =
    programs client
  /-- Each was answered as it asked: a change by its result, a read by what was to be read. -/
  answers : ∀ exchange ∈ session.exchanges, exchange.response.Answers exchange.request
  /-- Accepted changes of all clients were numbered from one, as they were served. -/
  numbers : session.exchanges.filterMap Exchange.number? =
    List.range' 1 session.controller.history.length
  /-- The numbers that one client was told went up. -/
  increasing : ∀ client, ((session.exchangesOf client).filterMap Exchange.number?).Pairwise (· < ·)
  /-- The entry with the number of a change shows that change. -/
  recorded : ∀ exchange ∈ session.exchanges, ∀ number, exchange.number? = some number →
    ∃ entry, session.controller.entryAt? number = some entry ∧ entry.sequence = number ∧
      session.controller.Shows entry exchange.request
  /-- A history that was shown is the first part of the history, up to the last change before. -/
  histories : ∀ before exchange after entries, session.exchanges = before ++ exchange :: after →
    exchange.response = .history entries →
      entries <+: session.controller.history ∧ entries.length = accepted before
  /-- A snapshot is the graph to which the changes before it lead. -/
  snapshots : ∀ before exchange after store, session.exchanges = before ++ exchange :: after →
    exchange.response = .snapshot store →
      ∀ clock, ∃ replayed,
        (Controller.replay clock (session.controller.history.take (accepted before)) config).1 =
            .ok replayed ∧
          replayed.store = store ∧ store.same replayed.store = true

end Session

namespace Controller

variable {config : Config} {controller final : Controller} {request : Request} {now : Occasion}

/-! ## One request -/

/-- What is served is a call, or a read that changes nothing. -/
theorem serve_cases (sound : controller.store.Sound) (now : Occasion) (request : Request) :
    (∃ entry, (controller.serve now request).2.1.history = controller.history ++ [entry] ∧
        (controller.serve now request).1.number? = some (controller.history.length + 1) ∧
        entry.sequence = controller.history.length + 1 ∧ controller.Shows entry request) ∨
      ((controller.serve now request).2.1 = controller ∧
        (controller.serve now request).1.number? = none) := by
  have recording : ∀ operation author compensates,
      (∃ entry, (controller.record now operation author compensates).controller.history =
            controller.history ++ [entry] ∧
          (answered (controller.record now operation author compensates)).1.number? =
            some (controller.history.length + 1) ∧
          entry.sequence = controller.history.length + 1 ∧
          entry.deed = (operation, author, compensates)) ∨
        ((controller.record now operation author compensates).controller = controller ∧
          (answered (controller.record now operation author compensates)).1.number? = none) := by
    intro operation author compensates
    rcases record_cases sound now operation author compensates with
      ⟨-, grows, answer⟩ | ⟨same, refusal, -, answer⟩
    · refine .inl ⟨controller.entryFor now operation author compensates, ?_, ?_, rfl, rfl⟩
      · rw [grows]
        rfl
      · rw [answered, answer]
        rfl
    · refine .inr ⟨same, ?_⟩
      rw [answered, answer]
      rfl
  cases request with
  | apply operation => exact recording operation controller.config.defaultAuthor none
  | submit operation author => exact recording operation author none
  | compensate sequence author =>
      rw [serve, compensate]
      cases allowed : controller.compensationFor sequence with
      | error refusal => exact .inr ⟨rfl, rfl⟩
      | ok inverse =>
          rcases recording inverse author (some sequence) with
            ⟨entry, longer, number, numbered, deed⟩ | unchanged
          · refine .inl ⟨entry, longer, number, numbered, ?_⟩
            cases found : controller.entryAt? sequence with
            | none => simp [compensationFor, found] at allowed
            | some undone =>
                obtain ⟨-, -, inverted⟩ := (compensationFor_of_entryAt? found).1 allowed
                exact ⟨undone, inverse, found, inverted, deed⟩
          · exact .inr unchanged
  | element id => exact .inr ⟨rfl, rfl⟩
  | edges id edgeType => exact .inr ⟨rfl, rfl⟩
  | history => exact .inr ⟨rfl, rfl⟩
  | snapshot => exact .inr ⟨rfl, rfl⟩

theorem Grown.serve (grown : Grown config controller) (now : Occasion) (request : Request) :
    Grown config (controller.serve now request).2.1 := by
  cases request with
  | apply operation => exact grown.call (.apply now operation)
  | submit operation author => exact grown.call (.submit now operation author)
  | compensate sequence author => exact grown.call (.compensate now sequence author)
  | element id => exact grown
  | edges id edgeType => exact grown
  | history => exact grown
  | snapshot => exact grown

theorem answers_serve (controller : Controller) (now : Occasion) (request : Request) :
    (controller.serve now request).1.Answers request := by
  cases request <;> exact ⟨_, rfl⟩

theorem history_prefix_serve (sound : controller.store.Sound) (now : Occasion) (request : Request) :
    controller.history <+: (controller.serve now request).2.1.history := by
  rcases controller.serve_cases sound now request with ⟨entry, longer, -⟩ | ⟨same, -⟩
  · simp [longer]
  · simp [same]

/-- Only the history is answered with a history. -/
theorem eq_history_of_serve {entries : List HistoryEntry}
    (answer : (controller.serve now request).1 = .history entries) :
    entries = controller.history := by
  cases request with
  | history =>
      cases answer
      rfl
  | _ => cases answer

/-- Only the graph is answered with a graph. -/
theorem eq_store_of_serve {store : Store}
    (answer : (controller.serve now request).1 = .snapshot store) : store = controller.store := by
  cases request with
  | snapshot =>
      cases answer
      rfl
  | _ => cases answer

/-! ## Longer histories -/

theorem entryAt?_mono (first_part : controller.history <+: final.history) {sequence : Nat}
    {entry : HistoryEntry} (found : controller.entryAt? sequence = some entry) :
    final.entryAt? sequence = some entry := by
  obtain ⟨rest, whole⟩ := first_part
  obtain ⟨before, after, split, rfl⟩ := entryAt?_eq_some_iff.1 found
  exact entryAt?_eq_some_iff.2 ⟨before, after ++ rest, by simp [← whole, split], rfl⟩

theorem Shows.mono {entry : HistoryEntry} (shows : controller.Shows entry request)
    (first_part : controller.history <+: final.history) (settings : final.config = controller.config) :
    final.Shows entry request := by
  cases request with
  | apply operation =>
      rw [Shows, settings]
      exact shows
  | submit operation author => exact shows
  | compensate sequence author =>
      obtain ⟨undone, inverse, found, inverted, deed⟩ := shows
      exact ⟨undone, inverse, entryAt?_mono first_part found, inverted, deed⟩
  | _ => exact shows

end Controller

open Controller

/-- A request was answered by a controller that calls made and that had a number of entries, and these
and the one that the request added are the first part of the history of a later controller. -/
def Moment (config : Config) (final : Controller) (count : Nat) (request : Request)
    (response : Response) : Prop :=
  ∃ earlier now, Grown config earlier ∧ earlier.history.length = count ∧
    response = (earlier.serve now request).1 ∧
    (earlier.serve now request).2.1.history <+: final.history

namespace Moment

variable {config : Config} {final later : Controller} {count : Nat} {request : Request}
  {response : Response}

theorem mono (moment : Moment config final count request response)
    (longer : final.history <+: later.history) : Moment config later count request response := by
  obtain ⟨earlier, now, grown, length, answer, first_part⟩ := moment
  exact ⟨earlier, now, grown, length, answer, first_part.trans longer⟩

theorem answers (moment : Moment config final count request response) : response.Answers request := by
  obtain ⟨earlier, now, -, -, rfl, -⟩ := moment
  exact earlier.answers_serve now request

/-- The number of a change is that of the entry that shows it. -/
theorem recorded (moment : Moment config final count request response) (grown : Grown config final)
    {number : Nat} (numbered : response.number? = some number) :
    ∃ entry, final.entryAt? number = some entry ∧ entry.sequence = number ∧
      final.Shows entry request := by
  obtain ⟨earlier, now, grown', -, rfl, first_part⟩ := moment
  rcases earlier.serve_cases grown'.sound now request with
    ⟨entry, added, told, sequence, shows⟩ | ⟨-, unnumbered⟩
  · obtain rfl : earlier.history.length + 1 = number := Option.some.inj (told.symm.trans numbered)
    have stands : (earlier.serve now request).2.1.entryAt? (earlier.history.length + 1) =
        some entry :=
      entryAt?_eq_some_iff.2 ⟨earlier.history, [], added, rfl⟩
    have settings : final.config = earlier.config := grown.config_eq.trans grown'.config_eq.symm
    have longer : earlier.history <+: final.history :=
      (earlier.history_prefix_serve grown'.sound now request).trans first_part
    exact ⟨entry, entryAt?_mono first_part stands, sequence, shows.mono longer settings⟩
  · simp [unnumbered] at numbered

/-- A history that is shown is the first part of the later one. -/
theorem history {entries : List HistoryEntry}
    (moment : Moment config final count request (.history entries)) :
    entries <+: final.history ∧ entries.length = count := by
  obtain ⟨earlier, now, grown, rfl, answer, first_part⟩ := moment
  obtain rfl := eq_history_of_serve answer.symm
  exact ⟨(earlier.history_prefix_serve grown.sound now request).trans first_part, rfl⟩

/-- A snapshot is the graph that the entries lead to which were there at the time. -/
theorem snapshot {store : Store} (moment : Moment config final count request (.snapshot store))
    (clock : Nat → Occasion) :
    ∃ replayed, (replay clock (final.history.take count) config).1 = .ok replayed ∧
      replayed.store = store ∧ store.same replayed.store = true := by
  obtain ⟨earlier, now, grown, rfl, answer, first_part⟩ := moment
  obtain rfl := eq_store_of_serve answer.symm
  have longer := (earlier.history_prefix_serve grown.sound now request).trans first_part
  obtain ⟨replayed, done, untimed⟩ := grown.replays_itself clock
  rw [List.prefix_iff_eq_take.1 longer] at done
  have store_eq : replayed.store = earlier.store := congrArg Prod.fst untimed
  refine ⟨replayed, done, store_eq, ?_⟩
  rw [store_eq]
  exact Store.same_of_edges grown.sound grown.sound (.refl _) rfl fun _ _ => rfl

end Moment

namespace Session

variable {ι : Type} [DecidableEq ι] {config : Config} {programs : ι → List Request}
  {session : Session ι}

/-! ## Turns -/

/-- What every turn keeps: all that was answered is a moment of the controller as it is now. -/
structure Orderly (config : Config) (programs : ι → List Request) (session : Session ι) : Prop where
  grown : Grown config session.controller
  order : ∀ client, (session.exchangesOf client).map Exchange.request ++ session.pending client =
    programs client
  numbers : session.exchanges.filterMap Exchange.number? =
    List.range' 1 session.controller.history.length
  moments : ∀ before exchange after, session.exchanges = before ++ exchange :: after →
    Moment config session.controller (accepted before) exchange.request exchange.response

theorem Orderly.start (config : Config) (programs : ι → List Request) :
    (Session.start config programs).Orderly config programs where
  grown := .new
  order _ := rfl
  numbers := rfl
  moments before exchange after split := by simp [Session.start] at split

theorem Orderly.accepted_eq (orderly : session.Orderly config programs) :
    accepted session.exchanges = session.controller.history.length := by
  rw [accepted, orderly.numbers, List.length_range']

/-- One more request is served after all the others. -/
theorem Orderly.turn (orderly : session.Orderly config programs) (now : Occasion) (client : ι) :
    (session.turn now client).Orderly config programs := by
  cases asks : session.pending client with
  | nil => simpa only [Session.turn, asks] using orderly
  | cons request rest =>
      have sound := orderly.grown.sound
      simp only [Session.turn, asks]
      constructor
      case grown => exact orderly.grown.serve now request
      case order =>
        intro other
        rw [← orderly.order other]
        by_cases own : client = other
        · subst own
          simp [exchangesOf, asks]
        · simp [exchangesOf, own, Function.update_of_ne (Ne.symm own)]
      case numbers =>
        rw [List.filterMap_append, orderly.numbers]
        rcases session.controller.serve_cases sound now request with
          ⟨entry, longer, number, -⟩ | ⟨same, number⟩
        · simp [Exchange.number?, longer, number, List.range'_concat, Nat.add_comm]
        · simp [Exchange.number?, same, number]
      case moments =>
        intro before exchange after split
        rcases split_concat split with ⟨rfl, rfl⟩ | ⟨between, old, -⟩
        · exact ⟨session.controller, now, orderly.grown, orderly.accepted_eq.symm, rfl,
            List.prefix_refl _⟩
        · exact (orderly.moments before exchange between old).mono
            (history_prefix_serve sound now request)

theorem Orderly.play (orderly : session.Orderly config programs) (schedule : List (Occasion × ι)) :
    (session.play schedule).Orderly config programs := by
  induction schedule generalizing session with
  | nil => exact orderly
  | cons next schedule ih => exact ih (orderly.turn next.1 next.2)

theorem Orderly.serialised (orderly : session.Orderly config programs) :
    session.Serialised config programs where
  order := orderly.order
  answers exchange member := by
    obtain ⟨before, after, split⟩ := List.append_of_mem member
    exact (orderly.moments before exchange after split).answers
  numbers := orderly.numbers
  increasing client := by
    have some_of_them : ((session.exchangesOf client).filterMap Exchange.number?).Sublist
        (session.exchanges.filterMap Exchange.number?) :=
      List.filter_sublist.filterMap _
    rw [orderly.numbers] at some_of_them
    exact (List.pairwise_lt_range' 1).sublist some_of_them
  recorded exchange member number numbered := by
    obtain ⟨before, after, split⟩ := List.append_of_mem member
    exact (orderly.moments before exchange after split).recorded orderly.grown numbered
  histories before exchange after entries split answer :=
    Moment.history (answer ▸ orderly.moments before exchange after split)
  snapshots before exchange after store split answer :=
    Moment.snapshot (answer ▸ orderly.moments before exchange after split)

/-- **In whatever order the requests of some clients are served: each is answered as it asks; the changes
that were accepted are numbered from one to the number of entries, and upwards for each client; the entry
with such a number shows who made the change and what was done; every history that was shown is a first
part of the history; and every snapshot is the graph to which the entries lead that were accepted before
it.** -/
theorem serialised_play (config : Config) (programs : ι → List Request)
    (schedule : List (Occasion × ι)) :
    ((Session.start config programs).play schedule).Serialised config programs :=
  ((Orderly.start config programs).play schedule).serialised

/-- Two clients undo the same entry. The one whose turn comes later is refused, and its next change gets
the next number. -/
example :
    let programs : Bool → List Request
      | true => [.submit (.newElement (.clazz ⟨.ofNat 1, "List"⟩) none .empty) "first",
          .compensate 1 "first"]
      | false => [.history, .compensate 1 "second",
          .submit (.newElement (.clazz ⟨.ofNat 2, "Map"⟩) none .empty) "second"]
    let session := (Session.start {} programs).play <|
      [true, false, false, true, false, true].map fun client => (.epoch, client)
    session.exchanges.map Exchange.number? = [some 1, none, some 2, none, some 3] := by
  decide

end Session

end LanguageGraph
