import DelegatedVoting.Shutdown
import Mathlib.Data.List.Count
import Mathlib.Data.List.Induction

/-!
# Everybody hears of every trigger

A controller is triggered, asked and subscribed to in any order. Who waits for a signal is told
once that the node shall stop, as soon as it was told so, whether they began to wait before the
trigger or after it. Who has subscribed hears of every trigger once, one by one or by the number of
those that they have missed.

* `Watch`, `Step`, `Answer`, `Watch.step`, `Watch.after`, `Watch.log`: the controller with everybody
  who waits and everybody who has subscribed, and what they are told;
* `Signal.IsSound`, `Signal.poll_spec`: what somebody who waits is told;
* `Channel.receive_spec`: what somebody who has subscribed hears;
* `Watch.after_spec`, `Watch.stage_spec`, `Watch.heard_spec`: the flag, a signal and a subscriber
  after any steps;
* `Watch.answer_poll`, `Watch.answer_receive`: what somebody who waits or has subscribed is told
  then;
* `triggers_are_told`: what everybody is told at any time.
-/

namespace DelegatedVoting

namespace Channel

/-- The number of messages that a notice reports. -/
def Notice.reports : Notice → Nat
  | .empty => 0
  | .notified => 1
  | .lagged missed => missed

theorem oldest_le (c : Channel) : c.oldest ≤ c.sent := Nat.sub_le _ _

/-- A notice reports the messages from the next one on, and none if and only if all of them have
been reported. -/
theorem receive_spec {c : Channel} {r : Receiver} (h : r.next ≤ c.sent) :
    (c.receive r).2.next = r.next + (c.receive r).1.reports ∧ (c.receive r).2.next ≤ c.sent ∧
      ((c.receive r).1 = .empty ↔ r.next = c.sent) ∧
      ((c.receive r).1 = .empty ↔ (c.receive r).1.reports = 0) := by
  have holdest := c.oldest_le
  unfold receive
  split
  · simp only [Notice.reports]
    grind
  · split <;> simp only [Notice.reports] <;> grind

end Channel

namespace Shutdown

/-! ### Steps -/

/-- A controller, everybody who waits for a trigger, and everybody who has subscribed. -/
structure Watch where
  shutdown : Shutdown := {}
  signals : List Signal := []
  receivers : List Receiver := []

/-- What can happen. Those who wait and those who have subscribed are numbered from zero on. -/
inductive Step
  | trigger
  | triggered
  | signal
  | poll (i : Nat)
  | subscribe
  | receive (i : Nat)
  deriving DecidableEq

/-- What is answered. -/
inductive Answer
  | nothing
  | flag (b : Bool)
  /-- The number of somebody who waits or has subscribed. -/
  | number (i : Nat)
  | poll (p : Poll)
  | notice (n : Notice)
  deriving DecidableEq

namespace Watch

/-- The answer, and what comes of it. Nothing is answered to somebody who does not exist. -/
def step (w : Watch) : Step → Answer × Watch
  | .trigger => (.nothing, { w with shutdown := w.shutdown.trigger })
  | .triggered => (.flag w.shutdown.isTriggered, w)
  | .signal => (.number w.signals.length, { w with signals := w.signals ++ [w.shutdown.signal] })
  | .poll i =>
    match w.signals[i]? with
    | some s => (.poll (s.poll w.shutdown).1,
        { w with signals := w.signals.set i (s.poll w.shutdown).2 })
    | none => (.nothing, w)
  | .subscribe =>
    (.number w.receivers.length, { w with receivers := w.receivers ++ [w.shutdown.subscribe] })
  | .receive i =>
    match w.receivers[i]? with
    | some r => (.notice (r.receive w.shutdown).1,
        { w with receivers := w.receivers.set i (r.receive w.shutdown).2 })
    | none => (.nothing, w)

/-- What comes of some steps. -/
def after (w : Watch) (steps : List Step) : Watch := steps.foldl (fun w x => (w.step x).2) w

/-- The steps with their answers. -/
def log (w : Watch) : List Step → List (Step × Answer)
  | [] => []
  | x :: steps => (x, (w.step x).1) :: (w.step x).2.log steps

@[simp] theorem after_nil (w : Watch) : w.after [] = w := rfl

@[simp] theorem after_cons (w : Watch) (x : Step) (steps : List Step) :
    w.after (x :: steps) = (w.step x).2.after steps := rfl

theorem after_append (w : Watch) (steps more : List Step) :
    w.after (steps ++ more) = (w.after steps).after more := List.foldl_append

theorem log_append (w : Watch) (steps more : List Step) :
    w.log (steps ++ more) = w.log steps ++ (w.after steps).log more := by
  induction steps generalizing w with
  | nil => rfl
  | cons x steps ih => rw [List.cons_append, log, ih, log, List.cons_append, after_cons]

/-- Somebody who waits is only changed by being told something. -/
theorem getElem?_signals_step {w : Watch} {i : Nat} {s : Signal} (h : w.signals[i]? = some s)
    (x : Step) : (w.step x).2.signals[i]? =
      some (if x = .poll i then (s.poll w.shutdown).2 else s) := by
  obtain ⟨hi, -⟩ := List.getElem?_eq_some_iff.1 h
  cases x with
  | trigger | triggered | subscribe => exact h
  | receive k =>
    rw [step, if_neg nofun]
    split <;> exact h
  | signal => rw [step, if_neg nofun, List.getElem?_append_left hi, h]
  | poll k =>
    by_cases hk : k = i
    · subst hk
      simp only [step, h, List.getElem?_set_self hi, if_pos]
    · rw [if_neg fun hx => hk (Step.poll.inj hx)]
      rw [step]
      split
      · rw [List.getElem?_set_ne hk, h]
      · exact h

/-- Somebody who has subscribed is only changed by hearing something. -/
theorem getElem?_receivers_step {w : Watch} {i : Nat} {r : Receiver}
    (h : w.receivers[i]? = some r) (x : Step) : (w.step x).2.receivers[i]? =
      some (if x = .receive i then (r.receive w.shutdown).2 else r) := by
  obtain ⟨hi, -⟩ := List.getElem?_eq_some_iff.1 h
  cases x with
  | trigger | triggered | signal => exact h
  | poll k =>
    rw [step, if_neg nofun]
    split <;> exact h
  | subscribe => rw [step, if_neg nofun, List.getElem?_append_left hi, h]
  | receive k =>
    by_cases hk : k = i
    · subst hk
      simp only [step, h, List.getElem?_set_self hi, if_pos]
    · rw [if_neg fun hx => hk (Step.receive.inj hx)]
      rw [step]
      split
      · rw [List.getElem?_set_ne hk, h]
      · exact h

end Watch

/-! ### One signal -/

/-- The flag tells whether messages have been sent. -/
def IsSound (s : Shutdown) : Prop := s.isTriggered = true ↔ s.channel.sent ≠ 0

/-- Nobody who waits is ahead of the channel, and who has seen that the flag was not raised has
subscribed before the first message. -/
structure Signal.IsSound (s : Shutdown) (w : Signal) : Prop where
  next_le : w.receiver.next ≤ s.channel.sent
  next_eq : w.stage = .waiting → w.receiver.next = 0

theorem Signal.isSound_signal (s : Shutdown) : s.signal.IsSound s := ⟨Nat.le_refl _, nofun⟩

theorem Signal.IsSound.trigger {s : Shutdown} {w : Signal} (h : w.IsSound s) :
    w.IsSound s.trigger := ⟨Nat.le_succ_of_le h.next_le, h.next_eq⟩

/-- Who looks at the channel from its first message on is told whether messages have been sent. -/
theorem Signal.await_spec {s : Shutdown} {w : Signal} (hs : s.IsSound)
    (hnext : w.receiver.next = 0) :
    (w.await s).1 = (if s.isTriggered then .ready else .pending) ∧
      ((w.await s).2.stage = .done ↔ s.isTriggered = true) ∧ (w.await s).2.IsSound s := by
  have hle : w.receiver.next ≤ s.channel.sent := by rw [hnext]; exact Nat.zero_le _
  obtain ⟨-, hle', hempty, -⟩ := Channel.receive_spec hle
  rw [hnext] at hempty
  unfold await Receiver.receive
  cases hreceive : s.channel.receive w.receiver with
  | mk n r =>
    rw [hreceive] at hle' hempty
    cases n with
    | empty =>
      -- nothing has been sent, so the receiver stays where it is
      have hsent := (hempty.1 rfl).symm
      have hflag : s.isTriggered = false := Bool.eq_false_iff.2 fun h => hs.1 h hsent
      rw [hflag]
      exact ⟨rfl, iff_of_false nofun nofun, hle', fun _ => Nat.le_zero.1 (hsent ▸ hle')⟩
    | notified | lagged =>
      have hflag : s.isTriggered = true := hs.2 fun hsent => nomatch hempty.2 hsent.symm
      rw [hflag]
      exact ⟨rfl, iff_of_true rfl rfl, hle', nofun⟩

/-- **Who waits is told once**, as soon as the node was told to stop. -/
theorem Signal.poll_spec {s : Shutdown} {w : Signal} (hs : s.IsSound) (hw : w.IsSound s) :
    (w.poll s).1 = (if w.stage = .done then .done else if s.isTriggered then .ready else .pending) ∧
      ((w.poll s).2.stage = .done ↔ w.stage = .done ∨ s.isTriggered = true) ∧
      (w.poll s).2.IsSound s := by
  unfold poll
  cases hstage : w.stage with
  | done => exact ⟨rfl, by simp [hstage], hw⟩
  | waiting => simpa using await_spec hs (hw.next_eq hstage)
  | fresh =>
    cases hflag : s.isTriggered with
    | true => exact ⟨rfl, by simp, hw.next_le, nofun⟩
    | false =>
      have hsent : s.channel.sent = 0 := by
        by_contra hsent
        rw [hs.2 hsent] at hflag
        cases hflag
      have hnext : w.receiver.next = 0 := Nat.le_zero.1 (hsent ▸ hw.next_le)
      simpa [hflag] using await_spec hs hnext

/-! ### Everybody -/

/-- What is known after some steps: as many messages have been sent as there were triggers, the
flag is raised if there was one, and nobody is ahead of the channel. -/
structure Watch.Follows (w : Watch) (steps : List Step) : Prop where
  sent_eq : w.shutdown.channel.sent = steps.count .trigger
  isTriggered_iff : w.shutdown.isTriggered = true ↔ .trigger ∈ steps
  signals : ∀ s ∈ w.signals, s.IsSound w.shutdown
  receivers : ∀ r ∈ w.receivers, r.next ≤ w.shutdown.channel.sent

namespace Watch

variable {w : Watch} {before since : List Step} {i : Nat}

theorem Follows.isSound (h : w.Follows before) : w.shutdown.IsSound := by
  rw [IsSound, h.isTriggered_iff, h.sent_eq, ne_eq, List.count_eq_zero, not_not]

/-- One step keeps what is known. -/
theorem Follows.step (h : w.Follows before) (x : Step) : (w.step x).2.Follows (before ++ [x]) := by
  cases x with
  | trigger =>
    refine ⟨?_, iff_of_true rfl (by simp), fun s hs => (h.signals s hs).trigger,
      fun r hr => Nat.le_succ_of_le (h.receivers r hr)⟩
    rw [List.count_append, ← h.sent_eq]
    rfl
  | triggered =>
    exact ⟨by simp [Watch.step, h.sent_eq], by simp [Watch.step, h.isTriggered_iff], h.signals,
      h.receivers⟩
  | signal =>
    refine ⟨by simp [Watch.step, h.sent_eq], by simp [Watch.step, h.isTriggered_iff],
      List.forall_mem_append.2 ⟨h.signals, ?_⟩, h.receivers⟩
    exact List.forall_mem_singleton.2 (Signal.isSound_signal _)
  | subscribe =>
    refine ⟨by simp [Watch.step, h.sent_eq], by simp [Watch.step, h.isTriggered_iff], h.signals,
      List.forall_mem_append.2 ⟨h.receivers, ?_⟩⟩
    exact List.forall_mem_singleton.2 (Nat.le_refl _)
  | poll i =>
    rw [Watch.step]
    cases hi : w.signals[i]? with
    | none => exact ⟨by simp [h.sent_eq], by simp [h.isTriggered_iff], h.signals, h.receivers⟩
    | some s =>
      refine ⟨by simp [h.sent_eq], by simp [h.isTriggered_iff], fun s' hs' => ?_, h.receivers⟩
      rcases List.mem_or_eq_of_mem_set hs' with hs' | rfl
      · exact h.signals s' hs'
      · exact (Signal.poll_spec h.isSound (h.signals s (List.mem_of_getElem? hi))).2.2
  | receive i =>
    rw [Watch.step]
    cases hi : w.receivers[i]? with
    | none => exact ⟨by simp [h.sent_eq], by simp [h.isTriggered_iff], h.signals, h.receivers⟩
    | some r =>
      refine ⟨by simp [h.sent_eq], by simp [h.isTriggered_iff], h.signals, fun r' hr' => ?_⟩
      rcases List.mem_or_eq_of_mem_set hr' with hr' | rfl
      · exact h.receivers r' hr'
      · exact (Channel.receive_spec (h.receivers r (List.mem_of_getElem? hi))).2.1

/-- What is known after any steps. -/
theorem after_spec (steps : List Step) : (after {} steps).Follows steps := by
  induction steps using List.reverseRecOn with
  | nil => exact ⟨rfl, iff_of_false nofun nofun, nofun, nofun⟩
  | append_singleton steps x ih =>
    rw [after_append]
    exact ih.step x

/-! ### Since somebody began to wait -/

/-- The signal was asked for when the node had been told to stop. -/
def IsTold (before : List Step) (i : Nat) (since : List Step) : Prop :=
  ∃ front back, since = front ++ .poll i :: back ∧ .trigger ∈ before ++ front

theorem isTold_append_singleton {x : Step} : IsTold before i (since ++ [x]) ↔
    IsTold before i since ∨ x = .poll i ∧ .trigger ∈ before ++ since := by
  constructor
  · rintro ⟨front, back, heq, htrigger⟩
    rcases List.eq_nil_or_concat back with rfl | ⟨back, y, rfl⟩
    · obtain ⟨rfl, hx⟩ := List.append_inj' heq rfl
      exact .inr ⟨List.singleton_inj.1 hx, htrigger⟩
    · rw [List.concat_eq_append, ← List.cons_append, ← List.append_assoc] at heq
      exact .inl ⟨front, back, (List.append_inj' heq rfl).1, htrigger⟩
  · rintro (⟨front, back, rfl, htrigger⟩ | ⟨rfl, htrigger⟩)
    · exact ⟨front, back ++ [x], by simp, htrigger⟩
    · exact ⟨since, [], rfl, htrigger⟩

theorem IsTold.trigger_mem (h : IsTold before i since) : .trigger ∈ before ++ since := by
  obtain ⟨front, back, rfl, htrigger⟩ := h
  rw [← List.append_assoc]
  exact List.mem_append_left _ htrigger

/-- A signal is over if and only if it was asked for when the node had been told to stop. -/
theorem stage_spec (before since : List Step) :
    ∃ s, (after {} (before ++ .signal :: since)).signals[(after {} before).signals.length]? =
      some s ∧ (s.stage = .done ↔ IsTold before (after {} before).signals.length since) := by
  induction since using List.reverseRecOn with
  | nil =>
    refine ⟨(after {} before).shutdown.signal, ?_, iff_of_false nofun ?_⟩
    · rw [after_append]
      exact List.getElem?_concat_length
    · rintro ⟨front, back, heq, -⟩
      simp at heq
  | append_singleton since x ih =>
    obtain ⟨s, hs, hstage⟩ := ih
    have hknown := after_spec (before ++ .signal :: since)
    have hpoll := Signal.poll_spec hknown.isSound (hknown.signals s (List.mem_of_getElem? hs))
    rw [← List.cons_append, ← List.append_assoc, after_append]
    refine ⟨_, getElem?_signals_step hs x, ?_⟩
    rw [isTold_append_singleton]
    by_cases hx : x = .poll (after {} before).signals.length
    · rw [if_pos hx, hpoll.2.1, hstage, hknown.isTriggered_iff]
      simp [hx]
    · rw [if_neg hx, hstage]
      simp [hx]

/-- Who waits is told nothing before the first trigger, and once after it. -/
theorem answer_poll (before since : List Step) :
    let i := (after {} before).signals.length
    let told := ((after {} (before ++ .signal :: since)).step (.poll i)).1
    (told = .poll .pending ↔ .trigger ∉ before ++ since) ∧
    (told = .poll .ready ↔ .trigger ∈ before ++ since ∧ ¬ IsTold before i since) ∧
    (told = .poll .done ↔ IsTold before i since) := by
  obtain ⟨s, hs, hstage⟩ := stage_spec before since
  have hknown := after_spec (before ++ .signal :: since)
  have htold := (Signal.poll_spec hknown.isSound (hknown.signals s (List.mem_of_getElem? hs))).1
  have hflag : (after {} (before ++ .signal :: since)).shutdown.isTriggered = true ↔
      .trigger ∈ before ++ since := by
    rw [hknown.isTriggered_iff]
    simp
  simp only [step, hs]
  by_cases hdone : IsTold before (after {} before).signals.length since
  · rw [htold, if_pos (hstage.2 hdone)]
    simp only [hdone, hdone.trigger_mem]
    decide
  rw [htold, if_neg (mt hstage.1 hdone)]
  by_cases htrigger : .trigger ∈ before ++ since
  · rw [if_pos (hflag.2 htrigger)]
    simp only [hdone, htrigger]
    decide
  · rw [if_neg (mt hflag.1 htrigger)]
    simp only [hdone, htrigger]
    decide

/-! ### Since somebody has subscribed -/

/-- The number of triggers that an answer reports to somebody who has subscribed. -/
def reports (i : Nat) : Step × Answer → Nat
  | (.receive k, .notice n) => if k = i then n.reports else 0
  | _ => 0

/-- The number of triggers that somebody who has subscribed has heard of. -/
def heard (i : Nat) : List (Step × Answer) → Nat
  | [] => 0
  | told :: log => reports i told + heard i log

theorem heard_append (log more : List (Step × Answer)) :
    heard i (log ++ more) = heard i log + heard i more := by
  induction log with
  | nil => rw [List.nil_append, heard, Nat.zero_add]
  | cons told log ih => rw [List.cons_append, heard, heard, ih, Nat.add_assoc]

theorem heard_log_singleton {r : Receiver} (h : w.receivers[i]? = some r) (x : Step) :
    heard i (w.log [x]) = if x = .receive i then (r.receive w.shutdown).1.reports else 0 := by
  show reports i (x, (w.step x).1) + 0 = _
  rw [Nat.add_zero]
  cases x with
  | receive k =>
    by_cases hk : k = i
    · subst hk
      simp [step, h, reports]
    · rw [if_neg fun hx => hk (Step.receive.inj hx)]
      rw [step]
      split <;> simp [reports, hk]
  | _ => rfl

/-- Who has subscribed hears next of the first trigger that they have not heard of. -/
theorem heard_spec (before since : List Step) :
    ∃ r, (after {} (before ++ .subscribe :: since)).receivers[(after {} before).receivers.length]? =
      some r ∧ r.next = before.count .trigger + heard (after {} before).receivers.length
        ((after {} (before ++ [.subscribe])).log since) := by
  induction since using List.reverseRecOn with
  | nil =>
    refine ⟨(after {} before).shutdown.subscribe, ?_, (after_spec before).sent_eq⟩
    rw [after_append]
    exact List.getElem?_concat_length
  | append_singleton since x ih =>
    obtain ⟨r, hr, hnext⟩ := ih
    have hknown := after_spec (before ++ .subscribe :: since)
    have hreceive := Channel.receive_spec (hknown.receivers r (List.mem_of_getElem? hr))
    rw [← List.cons_append, ← List.append_assoc, after_append]
    refine ⟨_, getElem?_receivers_step hr x, ?_⟩
    have hafter : (after {} (before ++ [.subscribe])).after since =
        after {} (before ++ .subscribe :: since) := by
      rw [← after_append, List.append_assoc, List.singleton_append]
    rw [log_append, heard_append, hafter, heard_log_singleton hr, ← Nat.add_assoc, ← hnext]
    split
    · exact hreceive.1
    · rfl

/-- What is heard are triggers that have not been heard of, and there is no news if and only if all
of them have been heard of. -/
theorem answer_receive (before since : List Step) :
    let i := (after {} before).receivers.length
    let w := after {} (before ++ [.subscribe])
    ∃ n, ((w.after since).step (.receive i)).1 = .notice n ∧
      heard i (w.log since) + n.reports ≤ since.count .trigger ∧
      (n = .empty ↔ heard i (w.log since) = since.count .trigger) ∧
      (n = .empty ↔ n.reports = 0) := by
  obtain ⟨r, hr, hnext⟩ := heard_spec before since
  have hknown := after_spec (before ++ .subscribe :: since)
  obtain ⟨hreports, hle, hempty, hnone⟩ :=
    Channel.receive_spec (hknown.receivers r (List.mem_of_getElem? hr))
  have hsent : (after {} (before ++ .subscribe :: since)).shutdown.channel.sent =
      before.count .trigger + since.count .trigger := by
    rw [hknown.sent_eq, List.count_append, List.count_cons_of_ne Step.noConfusion]
  have hafter : (after {} (before ++ [.subscribe])).after since =
      after {} (before ++ .subscribe :: since) := by
    rw [← after_append, List.append_assoc, List.singleton_append]
  rw [hreports, hsent] at hle
  rw [hsent] at hempty
  refine ⟨(r.receive (after {} (before ++ .subscribe :: since)).shutdown).1, ?_, ?_, ?_, hnone⟩
  · rw [hafter, step, hr]
  · unfold Receiver.receive
    omega
  · refine hempty.trans ?_
    omega

end Watch

/-! ### What everybody is told -/

open Watch

/-- **Everybody hears of every trigger.** Take any steps, then a question, and any steps in between.
The flag tells whether there was a trigger. A signal is pending as long as there was no trigger,
before or after somebody began to wait; the first time that it is asked for after a trigger it is
ready, and from then on it is done. What somebody who has subscribed has heard of, together with
what they hear now, are at most the triggers since then; there is no news if and only if they have
heard of all of these, and other news report at least one. -/
theorem triggers_are_told (before : List Step) :
    ((after {} before).step .triggered).1 = .flag (decide (.trigger ∈ before)) ∧
    (∀ since : List Step,
      let i := (after {} before).signals.length
      let told := ((after {} (before ++ .signal :: since)).step (.poll i)).1
      ((after {} before).step .signal).1 = .number i ∧
      (told = .poll .pending ↔ .trigger ∉ before ++ since) ∧
      (told = .poll .ready ↔ .trigger ∈ before ++ since ∧ ¬ IsTold before i since) ∧
      (told = .poll .done ↔ IsTold before i since)) ∧
    ∀ since : List Step,
      let i := (after {} before).receivers.length
      let w := after {} (before ++ [.subscribe])
      ((after {} before).step .subscribe).1 = .number i ∧
      ∃ n, ((w.after since).step (.receive i)).1 = .notice n ∧
        heard i (w.log since) + n.reports ≤ since.count .trigger ∧
        (n = .empty ↔ heard i (w.log since) = since.count .trigger) ∧
        (n = .empty ↔ n.reports = 0) := by
  refine ⟨congrArg Answer.flag (Bool.eq_iff_iff.2 ?_), fun since => ⟨rfl, answer_poll before since⟩,
    fun since => ⟨rfl, answer_receive before since⟩⟩
  rw [(after_spec before).isTriggered_iff, decide_eq_true_iff]

/-- Two triggers in a row: the first one is missed, the second one is heard of. -/
example : ((log {} [.subscribe, .trigger, .trigger, .receive 0, .receive 0, .receive 0]).drop 3).map
    Prod.snd = [.notice (.lagged 1), .notice .notified, .notice .empty] := rfl

end Shutdown

end DelegatedVoting
