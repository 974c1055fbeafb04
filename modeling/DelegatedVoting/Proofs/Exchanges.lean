import DelegatedVoting.Metrics
import DelegatedVoting.Proofs.Maps
import DelegatedVoting.Proofs.Requests

/-!
# What is counted of requests and their responses

Of every request and its response at most one thing is counted: that a change was accepted, or the
kind of the error that the response tells. So the counts are those of a list of all the requests and
responses.

* `Exchange`: a request and its response;
* `Exchange.IsAccepted`, `outcome?`, `kind?`: what a response tells about the request;
* `Exchange.IsCounted`: what is counted of an exchange;
* `Metrics.Tallies`, `Metrics.Tallies.append`: the counts are those of a list of exchanges.
-/

namespace DelegatedVoting

namespace Gateway

/-- A request and its response. -/
structure Exchange where
  request : Request
  response : Response

namespace Exchange

/-- The change that is asked for on the route has been accepted. -/
def IsAccepted (x : Exchange) (route : Route) : Prop :=
  x.request.method = .post ∧ Route.ofPath? x.request.path = some route ∧ x.response.status = 200

instance (x : Exchange) (route : Route) : Decidable (x.IsAccepted route) :=
  inferInstanceAs (Decidable (_ ∧ _))

/-- The text that the document of the response has under a key. -/
def text? (x : Exchange) (key : String) : Option String :=
  match x.response.body with
  | .json d => d.field? key .text
  | _ => none

/-- The outcome that the response tells. -/
def outcome? (x : Exchange) : Option String := x.text? "outcome"

/-- The kind of the error that the response tells, if it tells of an error. -/
def kind? (x : Exchange) : Option String :=
  if x.response.status = 200 then none else x.text? "error"

theorem IsAccepted.route_eq {x : Exchange} {route route' : Route} (h : x.IsAccepted route)
    (h' : x.IsAccepted route') : route = route' :=
  Option.some.inj (h.2.1.symm.trans h'.2.1)

theorem IsAccepted.kind?_eq {x : Exchange} {route : Route} (h : x.IsAccepted route) :
    x.kind? = none := if_pos h.2.2

theorem not_isAccepted_of_kind? {x : Exchange} {kind : String} (h : x.kind? = some kind)
    (route : Route) : ¬ x.IsAccepted route := fun haccepted => by
  rw [haccepted.kind?_eq] at h
  cases h

/-- What is counted of an exchange. -/
inductive IsCounted (x : Exchange) : Option Event → Prop
  | created (h : x.IsAccepted .propose) : IsCounted x (some .created)
  | voted (h : x.IsAccepted .vote) : IsCounted x (some .voted)
  | delegated (h : x.IsAccepted .delegate) : IsCounted x (some .delegated)
  | finalized (h : x.IsAccepted .finalize) (o : Outcome) (duration : Microseconds)
      (ho : x.outcome? = some o.name) : IsCounted x (some (.finalized o duration))
  | rejected (kind : String) (h : x.kind? = some kind) : IsCounted x (some (.rejected kind))
  | nothing (h : ∀ route, ¬ x.IsAccepted route) (hkind : x.kind? = none) : IsCounted x none

/-- The route on which a change has been accepted if it is counted. -/
def routeOf? : Event → Option Route
  | .created => some .propose
  | .voted => some .vote
  | .delegated => some .delegate
  | .finalized .. => some .finalize
  | _ => none

/-- The kind of an error that is counted. -/
def errorOf? : Event → Option String
  | .rejected kind => some kind
  | _ => none

variable {x : Exchange} {news : Option Event}

theorem IsCounted.isAccepted_iff (h : x.IsCounted news) (route : Route) :
    x.IsAccepted route ↔ news.bind routeOf? = some route := by
  have hother {route' : Route} (h' : x.IsAccepted route') :
      x.IsAccepted route ↔ some route' = some route :=
    ⟨fun h => congrArg some (h'.route_eq h), fun h => Option.some.inj h ▸ h'⟩
  cases h with
  | created h => exact hother h
  | voted h => exact hother h
  | delegated h => exact hother h
  | finalized h => exact hother h
  | rejected kind h => exact iff_of_false (not_isAccepted_of_kind? h route) nofun
  | nothing h => exact iff_of_false (h route) nofun

theorem IsCounted.kind?_eq (h : x.IsCounted news) : x.kind? = news.bind errorOf? := by
  cases h with
  | created h => exact h.kind?_eq
  | voted h => exact h.kind?_eq
  | delegated h => exact h.kind?_eq
  | finalized h => exact h.kind?_eq
  | rejected kind h => exact h
  | nothing _ hkind => exact hkind

end Exchange

end Gateway

open Gateway

theorem LabelledCount.getD_increment (label other : String) (c : LabelledCount) :
    (increment label c).getD other 0 = c.getD other 0 + if label = other then 1 else 0 := by
  have hgetD (t : LabelledCount) (k : String) : t.getD k 0 = t[k]?.getD 0 :=
    Std.ExtTreeMap.getD_eq_getD_getElem?
  rw [increment, hgetD, Maps.getElem?_insert, hgetD c label, hgetD c other]
  by_cases h : label = other
  · subst h
    simp
  · simp [h]

namespace Metrics

/-- The metrics after something has been counted, if anything has. -/
def recordAny (news : Option Event) (m : Metrics) : Metrics := news.elim m m.record

/-- The counts are those of a list of exchanges, as numbers of 64 bits. -/
structure Tallies (m : Metrics) (log : List Exchange) : Prop where
  created : m.created = UInt64.ofNat (log.countP fun x => x.IsAccepted .propose)
  votes : m.votes = UInt64.ofNat (log.countP fun x => x.IsAccepted .vote)
  delegations : m.delegations = UInt64.ofNat (log.countP fun x => x.IsAccepted .delegate)
  finalized (o : Outcome) : m.finalized.getD o.name 0 =
    UInt64.ofNat (log.countP fun x => x.IsAccepted .finalize ∧ x.outcome? = some o.name)
  durations : m.durations.count = m.finalized.getD Outcome.passed.name 0 +
    m.finalized.getD Outcome.rejected.name 0
  rejected (kind : String) : m.rejected.getD kind 0 =
    UInt64.ofNat (log.countP fun x => x.kind? = some kind)

theorem tallies_nil (m : Metrics) (hcreated : m.created = 0) (hvotes : m.votes = 0)
    (hdelegations : m.delegations = 0) (hfinalized : m.finalized = ∅) (hrejected : m.rejected = ∅)
    (hdurations : m.durations.count = 0) : m.Tallies [] where
  created := hcreated
  votes := hvotes
  delegations := hdelegations
  finalized o := by simp [hfinalized]
  durations := by simp [hfinalized, hdurations]
  rejected kind := by simp [hrejected]

/-- **The counts are those of the exchanges with one more,** if what is counted of it is counted. -/
theorem Tallies.append {m : Metrics} {log : List Exchange} {x : Exchange} {news : Option Event}
    (h : m.Tallies log) (hx : x.IsCounted news) : (m.recordAny news).Tallies (log ++ [x]) := by
  have haccepted := hx.isAccepted_iff
  have hkind := hx.kind?_eq
  refine ⟨?_, ?_, ?_, fun o => ?_, ?_, fun kind => ?_⟩
  · simp only [List.countP_append, List.countP_singleton, haccepted]
    cases hx <;> simp [recordAny, record, Exchange.routeOf?, h.created]
  · simp only [List.countP_append, List.countP_singleton, haccepted]
    cases hx <;> simp [recordAny, record, Exchange.routeOf?, h.votes]
  · simp only [List.countP_append, List.countP_singleton, haccepted]
    cases hx <;> simp [recordAny, record, Exchange.routeOf?, h.delegations]
  · simp only [List.countP_append, List.countP_singleton, haccepted]
    cases hx with
    | finalized hx o' duration ho =>
      simp [recordAny, record, Exchange.routeOf?, LabelledCount.getD_increment, h.finalized, ho,
        apply_ite UInt64.ofNat]
    | _ => simp [recordAny, record, Exchange.routeOf?, h.finalized]
  · cases hx with
    | finalized hx o' duration ho =>
      simp only [recordAny, Option.elim_some, record, LabelledCount.getD_increment,
        Histogram.observe, h.durations]
      cases o' with
      | passed =>
        rw [if_pos rfl, if_neg (by decide), UInt64.add_zero]
        ac_rfl
      | rejected =>
        rw [if_neg (by decide), if_pos rfl, UInt64.add_zero]
        exact UInt64.add_assoc _ _ _
    | _ => exact h.durations
  · simp only [List.countP_append, List.countP_singleton, hkind]
    cases hx <;>
      simp [recordAny, record, Exchange.errorOf?, LabelledCount.getD_increment, h.rejected,
        apply_ite UInt64.ofNat]

end Metrics

end DelegatedVoting
