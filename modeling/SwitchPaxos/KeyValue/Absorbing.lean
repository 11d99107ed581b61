import SwitchPaxos.KeyValue.Server
import SwitchPaxos.KeyValue.StackPickle

/-!
# Messages that are no request

`parse` and the default function of the dispatcher make an unknown command of a
message that cannot be read.  They are reached only by some of these messages:
the logs, unpacking and the call of the function raise for others.
-/

namespace SwitchPaxos.KeyValue.KeyValueServer

open Python (Value Key Objects ascii)

variable {ο : Type} [DecidableEq ο] [Objects ο]

def WellFormed (pickle : Pickle ο) (datagram : Datagram) : Bool :=
  (pickle.request (recv datagram).data).isSome

/-- The database after some messages. -/
def dbAfter (pickle : Pickle ο) (db : Db ο) (datagrams : List Datagram) :
    Db ο :=
  datagrams.foldl
    (fun db datagram => carryOut (pickle.request (recv datagram).data) db) db

/-- The loop goes on after each message.  One that is no request is answered as
such and changes nothing, and the requests are answered as if it had not been
there. -/
structure Absorbed (pickle : Pickle ο) (takes : Datagram → Bool)
    (datagrams : List Datagram) : Prop where
  goesOn : (serve pickle takes datagrams ∅).result = .ok ()
  answered : (serve pickle takes datagrams ∅).effects.length = datagrams.length
  malformed : ∀ earlier datagram later,
    datagrams = earlier ++ datagram :: later → ¬ WellFormed pickle datagram →
    ∃ data, pickle.response invalid = some data ∧
      serve pickle takes (earlier ++ [datagram]) ∅ =
        (serve pickle takes earlier ∅).andThen fun _ db =>
          ⟨.ok (), db, [{ recv datagram with data }]⟩
  apart : serve pickle takes (datagrams.filter (WellFormed pickle)) ∅ =
    ⟨.ok (), (serve pickle takes datagrams ∅).state,
      ((datagrams.zip (serve pickle takes datagrams ∅).effects).filter
        fun pair => WellFormed pickle pair.1).map Prod.snd⟩

/-- The message unpickles and has a text.  Its command can be looked up, and a
function of the server is given the right number of arguments and a key that a
dictionary takes.  The arguments have a text as well, and the reply can be
pickled and sent. -/
structure Digestible (pickle : Pickle ο) (takes : Datagram → Bool) (db : Db ο)
    (datagram : Datagram) : Prop where
  logged : Logged pickle datagram.data
  called : ∃ key args, pickle.call datagram.data = some (key, args) ∧
    Accepted key args ∧ ∀ arg ∈ args, arg.prints
  sends : Sends pickle takes datagram
    (reply (pickle.request datagram.data) db) = true

instance (pickle : Pickle ο) (takes : Datagram → Bool) (db : Db ο)
    (datagram : Datagram) :
    Decidable (Digestible pickle takes db datagram) :=
  decidable_of_iff
    ((pickle.loads datagram.data).any Value.prints ∧
      ((pickle.call datagram.data).any fun called =>
        Accepted called.1 called.2 ∧ ∀ arg ∈ called.2, arg.prints) ∧
      Sends pickle takes datagram (reply (pickle.request datagram.data) db))
    (by
      simp only [Option.any_eq_true, decide_eq_true_eq, Prod.exists]
      exact ⟨fun ⟨logged, called, sends⟩ => ⟨logged, called, sends⟩,
        fun ⟨logged, called, sends⟩ => ⟨logged, called, sends⟩⟩)

/-- Each message is digestible with the values that the earlier ones stored. -/
def AllDigestible (pickle : Pickle ο) (takes : Datagram → Bool)
    (datagrams : List Datagram) : Prop :=
  ∀ earlier datagram later, datagrams = earlier ++ datagram :: later →
    Digestible pickle takes (dbAfter pickle ∅ earlier) (recv datagram)

/-- Whatever the database holds can be logged. -/
def Printable (db : Db ο) : Prop :=
  ∀ key value, db.lookup key = some value → value.prints

def answers (pickle : Pickle ο) : Db ο → List Datagram → List Datagram
  | _, [] => []
  | db, datagram :: datagrams =>
      answer pickle (recv datagram) db ++
        answers pickle (carryOut (pickle.request (recv datagram).data) db)
          datagrams

/-- Each message is digestible where it is handled, the first one with this
database. -/
def DigestibleFrom (pickle : Pickle ο) (takes : Datagram → Bool) :
    Db ο → List Datagram → Prop
  | _, [] => True
  | db, datagram :: datagrams =>
      Digestible pickle takes db (recv datagram) ∧
        DigestibleFrom pickle takes
          (carryOut (pickle.request (recv datagram).data) db) datagrams

variable {pickle : Pickle ο} {takes : Datagram → Bool} {db : Db ο}

theorem reply_prints (printable : Printable db) (request : Option (Request ο)) :
    (reply request db).prints := by
  match request with
  | none => rfl
  | some .ping => rfl
  | some (.put _ _) => rfl
  | some (.get key) =>
      simp only [reply]
      cases found : key.key.bind db.lookup with
      | none => rfl
      | some value =>
          obtain ⟨filed, -, lookup⟩ := Option.bind_eq_some_iff.mp found
          exact printable filed value lookup

theorem mem_of_stores {key filed : Key ο} {args : List (Value ο)}
    {value : Value ο}
    (stored : stores filed (Request.ofCommand key args) = some value) :
    value ∈ args := by
  have put : ∃ name, Request.ofCommand key args = some (.put name value) := by
    unfold stores at stored
    split at stored
    · next name found request =>
        split at stored
        · exact ⟨name, by rw [request, Option.some.inj stored]⟩
        · cases stored
    · cases stored
  obtain ⟨name, request⟩ := put
  unfold Request.ofCommand at request
  split_ifs at request
  · unfold Request.ofGet at request
    split at request <;> simp at request
  · unfold Request.ofPut at request
    split at request
    · simp at request
      simp [request]
    · simp at request
  · unfold Request.ofPing at request
    split at request <;> simp at request

theorem Printable.carryOut {key : Key ο} {args : List (Value ο)}
    (printable : Printable db) (prints : ∀ arg ∈ args, arg.prints) :
    Printable (carryOut (Request.ofCommand key args) db) := by
  intro filed value lookup
  rw [lookup_carryOut, Option.or_eq_some_iff] at lookup
  rcases lookup with stored | ⟨-, earlier⟩
  · exact prints value (mem_of_stores stored)
  · exact printable filed value earlier

theorem Digestible.handle {datagram : Datagram}
    (digestible : Digestible pickle takes db datagram)
    (printable : Printable db) :
    handle pickle takes datagram db =
      ⟨.ok (), carryOut (pickle.request datagram.data) db,
        answer pickle datagram db⟩ := by
  obtain ⟨key, args, called, accepted, prints⟩ := digestible.called
  rcases handle_of_accepted digestible.logged called accepted db with
    ⟨-, state, effects, result⟩ | ⟨refused, -⟩
  · have ok := result.mpr ⟨prints, reply_prints printable _⟩
    rw [← ok, ← state, ← effects]
  · rw [digestible.sends] at refused
    cases refused

theorem Digestible.answer {datagram : Datagram}
    (digestible : Digestible pickle takes db datagram) :
    ∃ data, pickle.response (reply (pickle.request datagram.data) db) =
        some data ∧
      answer pickle datagram db = [{ datagram with data }] := by
  obtain ⟨data, written, -⟩ := (Option.any_eq_true ..).mp digestible.sends
  refine ⟨data, written, ?_⟩
  rw [KeyValueServer.answer, written]
  rfl

theorem Digestible.printable {datagram : Datagram}
    (digestible : Digestible pickle takes db datagram)
    (printable : Printable db) :
    Printable (carryOut (pickle.request datagram.data) db) := by
  obtain ⟨key, args, called, -, prints⟩ := digestible.called
  have request : pickle.request datagram.data =
      Request.ofCommand key args := by
    simp [Pickle.request, called]
  rw [request]
  exact printable.carryOut prints

theorem digestible_of_handle {datagram : Datagram}
    (goesOn : (handle pickle takes datagram db).result = .ok ()) :
    Digestible pickle takes db datagram ∧
      (handle pickle takes datagram db).state =
        carryOut (pickle.request datagram.data) db := by
  by_cases answered : Answered pickle datagram.data
  · obtain ⟨logged, key, args, called, accepted⟩ := answered
    rcases handle_of_accepted logged called accepted db with
      ⟨sends, state, -, result⟩ | ⟨-, error, outcome⟩
    · exact ⟨⟨logged, ⟨key, args, called, accepted, (result.mp goesOn).1⟩,
        sends⟩, state⟩
    · rw [outcome] at goesOn
      cases goesOn
  · obtain ⟨error, outcome⟩ := handle_of_not_answered answered db
    rw [outcome] at goesOn
    cases goesOn

theorem serve_of_digestible {datagrams : List Datagram}
    (digestible : DigestibleFrom pickle takes db datagrams)
    (printable : Printable db) :
    serve pickle takes datagrams db =
      ⟨.ok (), dbAfter pickle db datagrams, answers pickle db datagrams⟩ := by
  induction datagrams generalizing db with
  | nil => rfl
  | cons datagram datagrams induction =>
      obtain ⟨first, others⟩ := digestible
      have rest := induction others (first.printable printable)
      unfold serve at rest ⊢
      simp only [Handler.forEach, Handler.bind_apply, first.handle printable,
        Outcome.andThen_ok, rest]
      rfl

theorem digestible_of_serve {datagrams : List Datagram}
    (goesOn : (serve pickle takes datagrams db).result = .ok ()) :
    DigestibleFrom pickle takes db datagrams := by
  induction datagrams generalizing db with
  | nil => trivial
  | cons datagram datagrams induction =>
      rcases reached : handle pickle takes (recv datagram) db with
        ⟨result, next, effects⟩
      unfold serve Handler.forEach at goesOn
      rw [Handler.bind_apply, reached] at goesOn
      cases result with
      | error error => cases goesOn
      | ok value =>
          obtain ⟨first, state⟩ := digestible_of_handle (by rw [reached])
          rw [reached] at state
          have rest := induction goesOn
          rw [state] at rest
          exact ⟨first, rest⟩

theorem length_answers {datagrams : List Datagram}
    (digestible : DigestibleFrom pickle takes db datagrams) :
    (answers pickle db datagrams).length = datagrams.length := by
  induction datagrams generalizing db with
  | nil => rfl
  | cons datagram datagrams induction =>
      obtain ⟨data, -, one⟩ := digestible.1.answer
      simp [answers, one, induction digestible.2]

theorem dbAfter_append (first second : List Datagram) :
    dbAfter pickle db (first ++ second) =
      dbAfter pickle (dbAfter pickle db first) second :=
  List.foldl_append

theorem answers_append (first second : List Datagram) :
    answers pickle db (first ++ second) =
      answers pickle db first ++
        answers pickle (dbAfter pickle db first) second := by
  induction first generalizing db with
  | nil => rfl
  | cons datagram first induction =>
      simp only [List.cons_append, answers, induction, List.append_assoc]
      rfl

theorem digestibleFrom_append {first second : List Datagram} :
    DigestibleFrom pickle takes db (first ++ second) ↔
      DigestibleFrom pickle takes db first ∧
        DigestibleFrom pickle takes (dbAfter pickle db first) second := by
  induction first generalizing db with
  | nil => exact (and_iff_right trivial).symm
  | cons datagram first induction =>
      simp only [List.cons_append, DigestibleFrom, induction, and_assoc]
      rfl

theorem allDigestible_iff {datagrams : List Datagram} :
    AllDigestible pickle takes datagrams ↔
      DigestibleFrom pickle takes ∅ datagrams := by
  constructor
  · intro all
    have upTo : ∀ earlier later, datagrams = earlier ++ later →
        DigestibleFrom pickle takes ∅ earlier := by
      intro earlier
      induction earlier using List.reverseRecOn with
      | nil => exact fun _ _ => trivial
      | append_singleton earlier datagram induction =>
          intro later split
          rw [List.append_assoc] at split
          exact digestibleFrom_append.mpr ⟨induction _ split,
            all earlier datagram later split, trivial⟩
    exact upTo datagrams [] (List.append_nil _).symm
  · rintro digestible earlier datagram later rfl
    exact (digestibleFrom_append.mp digestible).2.1

theorem request_of_malformed {datagram : Datagram}
    (malformed : ¬ WellFormed pickle datagram) :
    pickle.request (recv datagram).data = none := by
  simpa [WellFormed] using malformed

/-- Messages that are no request can be left out. -/
theorem dbAfter_filter (datagrams : List Datagram) :
    dbAfter pickle db (datagrams.filter (WellFormed pickle)) =
      dbAfter pickle db datagrams := by
  induction datagrams generalizing db with
  | nil => rfl
  | cons datagram datagrams induction =>
      by_cases wellFormed : WellFormed pickle datagram
      · rw [List.filter_cons_of_pos wellFormed]
        exact induction
      · rw [List.filter_cons_of_neg wellFormed, induction]
        simp [dbAfter, request_of_malformed wellFormed, carryOut]

theorem digestibleFrom_filter {datagrams : List Datagram}
    (digestible : DigestibleFrom pickle takes db datagrams) :
    DigestibleFrom pickle takes db
      (datagrams.filter (WellFormed pickle)) := by
  induction datagrams generalizing db with
  | nil => trivial
  | cons datagram datagrams induction =>
      obtain ⟨first, others⟩ := digestible
      have rest := induction others
      by_cases wellFormed : WellFormed pickle datagram
      · rw [List.filter_cons_of_pos wellFormed]
        exact ⟨first, rest⟩
      · rw [List.filter_cons_of_neg wellFormed]
        rw [request_of_malformed wellFormed] at rest
        exact rest

theorem answers_filter {datagrams : List Datagram}
    (digestible : DigestibleFrom pickle takes db datagrams) :
    answers pickle db (datagrams.filter (WellFormed pickle)) =
      ((datagrams.zip (answers pickle db datagrams)).filter
        fun pair => WellFormed pickle pair.1).map Prod.snd := by
  induction datagrams generalizing db with
  | nil => rfl
  | cons datagram datagrams induction =>
      obtain ⟨first, others⟩ := digestible
      obtain ⟨data, -, one⟩ := first.answer
      have rest := induction others
      by_cases wellFormed : WellFormed pickle datagram
      · rw [List.filter_cons_of_pos wellFormed]
        simp [answers, one, wellFormed, rest]
      · rw [List.filter_cons_of_neg wellFormed]
        rw [request_of_malformed wellFormed] at rest
        simpa [answers, one, wellFormed, request_of_malformed wellFormed,
          carryOut] using rest

end SwitchPaxos.KeyValue.KeyValueServer
