import AgentTaskPlatform.PiBridge
import AgentTaskPlatform.PiDelivery
import Mathlib.Data.List.Nodup
import Mathlib.Data.List.Range

/-!
The agreement on request numbers. Whatever is rejected, answered or aborted, a promise is
settled once and only with the response to its own request. Python gets the numbers from
one on without a gap as long as no request is written after one that had no line.
-/

namespace AgentTaskPlatform.PiBridge

open JsonText JsonNumbers PiFraming

variable {runtimes : Runtimes}

section Workers

structure Rejects (before after : Worker) : Prop where
  sequence : after.sequence = before.sequence
  calls : after.calls = before.calls
  output : after.output = before.output
  broken : after.broken = before.broken
  issued : after.issued = before.issued
  refused : after.refused = before.refused
  pending : ∀ entry ∈ after.pending, entry ∈ before.pending
  settled : ∀ entry ∈ after.settled, entry ∈ before.settled ∨ ∃ error, entry.2 = .rejected error
  once : (before.settled.map Prod.fst).Nodup → (after.settled.map Prod.fst).Nodup

theorem Rejects.refl (worker : Worker) : Rejects worker worker :=
  ⟨rfl, rfl, rfl, rfl, rfl, rfl, fun _ member => member, fun _ member => Or.inl member,
    fun once => once⟩

theorem Rejects.trans {first second third : Worker} (left : Rejects first second)
    (right : Rejects second third) : Rejects first third where
  sequence := right.sequence.trans left.sequence
  calls := right.calls.trans left.calls
  output := right.output.trans left.output
  broken := right.broken.trans left.broken
  issued := right.issued.trans left.issued
  refused := right.refused.trans left.refused
  pending := fun entry member => left.pending entry (right.pending entry member)
  settled := by
    intro entry member
    rcases right.settled entry member with old | rejected
    · exact left.settled entry old
    · exact Or.inr rejected
  once := fun once => right.once (left.once once)

/-- The settlements after one more, of which there is at most one for a promise. -/
theorem settle_settled (worker : Worker) (promise : Nat) (settlement : Settlement) :
    (∀ entry ∈ (worker.settle promise settlement).settled,
      entry ∈ worker.settled ∨ entry = (promise, settlement)) ∧
    ((worker.settled.map Prod.fst).Nodup →
      ((worker.settle promise settlement).settled.map Prod.fst).Nodup) := by
  unfold Worker.settle
  by_cases known : (worker.settled.any fun entry => entry.1 = promise) = true
  · rw [if_pos known]
    exact ⟨fun entry member => Or.inl member, fun once => once⟩
  · rw [if_neg known]
    constructor
    · intro entry member
      rcases List.mem_append.mp member with old | new
      · exact Or.inl old
      · exact Or.inr (List.mem_singleton.mp new)
    · intro once
      rw [List.map_append, List.map_singleton]
      apply List.Nodup.append once (List.nodup_singleton promise)
      intro other old new
      obtain ⟨entry, member, rfl⟩ := List.mem_map.mp old
      apply known
      exact List.any_eq_true.mpr ⟨entry, member, decide_eq_true (List.mem_singleton.mp new)⟩

theorem settle_fields (worker : Worker) (promise : Nat) (settlement : Settlement) :
    ∃ settled, worker.settle promise settlement = { worker with settled } := by
  unfold Worker.settle
  split
  · exact ⟨worker.settled, rfl⟩
  · exact ⟨_, rfl⟩

theorem settle_rejects (worker : Worker) (promise : Nat) (error : String) :
    Rejects worker (worker.settle promise (.rejected error)) := by
  obtain ⟨origin, once⟩ := settle_settled worker promise (.rejected error)
  obtain ⟨settled, same⟩ := settle_fields worker promise (.rejected error)
  rw [same] at origin once ⊢
  refine ⟨rfl, rfl, rfl, rfl, rfl, rfl, fun _ member => member, ?_, once⟩
  intro entry member
  rcases origin entry member with old | rfl
  · exact Or.inl old
  · exact Or.inr ⟨error, rfl⟩

theorem rejectAll_rejects (error : String) (promises : List Nat) (worker : Worker) :
    Rejects worker (worker.rejectAll error promises) := by
  induction promises generalizing worker with
  | nil => exact Rejects.refl worker
  | cons promise rest ih => exact (settle_rejects worker promise error).trans (ih _)

theorem forget_rejects (worker : Worker) (id : Nat) : Rejects worker (worker.forget id) :=
  ⟨rfl, rfl, rfl, rfl, rfl, rfl, fun _ member => (List.mem_filter.mp member).1,
    fun _ member => Or.inl member, fun once => once⟩

theorem abort_rejects (worker : Worker) : Rejects worker worker.abort := by
  have marked : Rejects worker { worker with aborted := true } :=
    ⟨rfl, rfl, rfl, rfl, rfl, rfl, fun _ member => member, fun _ member => Or.inl member,
      fun once => once⟩
  have rejected := marked.trans (rejectAll_rejects "aborted" (worker.pending.map Prod.snd) _)
  exact { rejected with pending := nofun }

theorem failWrites_rejects (lines : List Line) (worker : Worker) :
    Rejects worker (worker.failWrites lines) := by
  induction lines generalizing worker with
  | nil => exact Rejects.refl worker
  | cons line rest ih =>
      cases line with
      | request id call promise =>
          exact ((forget_rejects worker id).trans (settle_rejects _ promise _)).trans (ih _)
      | report entries => exact ih worker

end Workers

section Requests

def Worker.numbered (worker : Worker) : Worker :=
  { worker with
    calls := worker.calls + 1
    sequence := worker.sequence + 1
    issued := worker.issued ++ [(worker.sequence + 1, worker.calls)] }

def Fits (runtimes : Runtimes) (worker : Worker) (call : Call) : Prop :=
  ∃ line, send runtimes (requestRecord (worker.sequence + 1) call) = .ok line

inductive Requested (runtimes : Runtimes) (worker : Worker) (call : Call) : Worker → Prop
  | aborted {after : Worker} (closed : worker.aborted = true)
      (rejects : Rejects { worker with calls := worker.calls + 1 } after) :
      Requested runtimes worker call after
  | refused {after : Worker} (large : ¬ Fits runtimes worker call)
      (rejects : Rejects { worker.numbered with
        refused := worker.refused ++ [worker.sequence + 1] } after) :
      Requested runtimes worker call after
  | broken {after : Worker} (failed : worker.broken = true)
      (rejects : Rejects worker.numbered after) : Requested runtimes worker call after
  | sent (running : worker.aborted = false) (fits : Fits runtimes worker call)
      (whole : worker.broken = false) :
      Requested runtimes worker call { worker.numbered with
        pending := worker.pending ++ [(worker.sequence + 1, worker.calls)]
        output := worker.output ++ [.request (worker.sequence + 1) call worker.calls] }

theorem request_cases (worker : Worker) (call : Call) :
    Requested runtimes worker call (worker.request runtimes call) := by
  unfold Worker.request
  by_cases closed : worker.aborted = true
  · simp only [if_pos closed]
    exact .aborted closed (settle_rejects _ _ _)
  · simp only [if_neg closed]
    cases sending : send runtimes (requestRecord (worker.sequence + 1) call) with
    | error error =>
        refine .refused ?_ (settle_rejects _ _ _)
        rintro ⟨line, fits⟩
        rw [sending] at fits
        cases fits
    | ok line =>
        by_cases failed : worker.broken = true
        · simp only [if_pos failed]
          exact .broken failed (settle_rejects _ _ _)
        · simp only [if_neg failed]
          exact .sent (Bool.eq_false_of_not_eq_true closed) ⟨line, sending⟩
            (Bool.eq_false_of_not_eq_true failed)

end Requests

section Promises

structure Numbered (worker : Worker) : Prop where
  numbers : worker.issued.map Prod.fst = List.range' 1 worker.sequence
  promises : (worker.issued.map Prod.snd).Nodup
  called : ∀ entry ∈ worker.issued, entry.2 < worker.calls
  pending : ∀ entry ∈ worker.pending, entry ∈ worker.issued

theorem Numbered.rejects {before after : Worker} (numbered : Numbered before)
    (rejects : Rejects before after) : Numbered after where
  numbers := by rw [rejects.issued, rejects.sequence, numbered.numbers]
  promises := by
    rw [rejects.issued]
    exact numbered.promises
  called := by
    rw [rejects.issued, rejects.calls]
    exact numbered.called
  pending := by
    intro entry member
    rw [rejects.issued]
    exact numbered.pending entry (rejects.pending entry member)

theorem Numbered.called_more {worker : Worker} (numbered : Numbered worker) :
    Numbered { worker with calls := worker.calls + 1 } where
  numbers := numbered.numbers
  promises := numbered.promises
  called := fun entry member => Nat.lt_succ_of_lt (numbered.called entry member)
  pending := numbered.pending

theorem Numbered.next {worker : Worker} (numbered : Numbered worker) : Numbered worker.numbered where
  numbers := by
    rw [Worker.numbered, List.map_append, numbered.numbers, List.range'_1_concat, Nat.add_comm]
    rfl
  promises := by
    rw [Worker.numbered, List.map_append]
    apply List.Nodup.append numbered.promises (List.nodup_singleton _)
    intro promise old new
    obtain ⟨entry, member, rfl⟩ := List.mem_map.mp old
    have fresh : entry.2 = worker.calls := List.mem_singleton.mp new
    have := numbered.called entry member
    omega
  called := by
    intro entry member
    rcases List.mem_append.mp member with old | new
    · exact Nat.lt_succ_of_lt (numbered.called entry old)
    · rw [List.mem_singleton.mp new]
      exact Nat.lt_succ_self worker.calls
  pending := fun entry member => List.mem_append_left _ (numbered.pending entry member)

structure Settled (bridge : Bridge) : Prop where
  numbered : Numbered bridge.worker
  once : (bridge.worker.settled.map Prod.fst).Nodup
  own : ∀ promise answer, (promise, .resolved answer) ∈ bridge.worker.settled →
    ∃ id, (id, promise) ∈ bridge.worker.issued ∧ (id, answer) ∈ bridge.loop.answered
  arriving : ∀ entry ∈ bridge.toNode, entry ∈ bridge.loop.answered

theorem Settled.rejects {before after : Bridge} (settled : Settled before)
    (rejects : Rejects before.worker after.worker)
    (answered : ∀ entry ∈ before.loop.answered, entry ∈ after.loop.answered)
    (arriving : ∀ entry ∈ after.toNode, entry ∈ after.loop.answered) : Settled after where
  numbered := settled.numbered.rejects rejects
  once := rejects.once settled.once
  own := by
    intro promise answer member
    rcases rejects.settled _ member with old | ⟨error, rejected⟩
    · obtain ⟨id, issued, own⟩ := settled.own promise answer old
      exact ⟨id, rejects.issued ▸ issued, answered _ own⟩
    · cases rejected
  arriving := arriving

theorem Settled.respond {bridge : Bridge} (settled : Settled bridge) {id : Nat} {answer : Answer}
    {rest : List (Nat × Answer)} (arriving : bridge.toNode = (id, answer) :: rest) :
    Settled { bridge with worker := bridge.worker.respond id answer, toNode := rest } := by
  have later : ∀ entry ∈ rest, entry ∈ bridge.loop.answered := fun entry member =>
    settled.arriving entry (arriving ▸ List.mem_cons_of_mem _ member)
  have own : (id, answer) ∈ bridge.loop.answered :=
    settled.arriving _ (arriving ▸ List.mem_cons_self)
  unfold Worker.respond
  cases found : bridge.worker.pending.find? fun entry => entry.1 = id with
  | none => exact settled.rejects (abort_rejects bridge.worker) (fun _ member => member) later
  | some entry =>
      have kept := settled.numbered.rejects (forget_rejects bridge.worker id)
      have named : entry.1 = id := by simpa using List.find?_some found
      have issued : (id, entry.2) ∈ bridge.worker.issued := by
        rw [← named]
        exact settled.numbered.pending entry (List.mem_of_find?_eq_some found)
      obtain ⟨origin, once⟩ := settle_settled (bridge.worker.forget id) entry.2 (.resolved answer)
      obtain ⟨settlements, same⟩ := settle_fields (bridge.worker.forget id) entry.2 (.resolved answer)
      simp only [same] at origin once ⊢
      refine ⟨⟨kept.numbers, kept.promises, kept.called, kept.pending⟩, once settled.once, ?_, later⟩
      intro promise other member
      rcases origin _ member with old | new
      · exact settled.own promise other old
      · cases new
        exact ⟨id, issued, own⟩

theorem Settled.renumber {bridge : Bridge} (settled : Settled bridge) {worker : Worker}
    (numbered : Numbered worker) (same : worker.settled = bridge.worker.settled)
    (issued : ∀ entry ∈ bridge.worker.issued, entry ∈ worker.issued) :
    Settled { bridge with worker } where
  numbered := numbered
  once := same ▸ settled.once
  own := by
    intro promise answer member
    obtain ⟨id, own, answered⟩ := settled.own promise answer (same ▸ member)
    exact ⟨id, issued _ own, answered⟩
  arriving := settled.arriving

theorem Settled.request {bridge : Bridge} (settled : Settled bridge) (call : Call) :
    Settled { bridge with worker := bridge.worker.request runtimes call } := by
  have answered : ∀ entry ∈ bridge.loop.answered, entry ∈ bridge.loop.answered :=
    fun _ member => member
  have next := settled.numbered.next
  have more : ∀ entry ∈ bridge.worker.issued, entry ∈ bridge.worker.numbered.issued :=
    fun _ member => List.mem_append_left _ member
  have requested : Requested runtimes bridge.worker call (bridge.worker.request runtimes call) :=
    request_cases bridge.worker call
  generalize bridge.worker.request runtimes call = after at requested ⊢
  cases requested with
  | aborted closed rejects =>
      have called := settled.renumber settled.numbered.called_more rfl fun _ member => member
      exact called.rejects rejects answered settled.arriving
  | refused large rejects =>
      have marked : Numbered { bridge.worker.numbered with
          refused := bridge.worker.refused ++ [bridge.worker.sequence + 1] } :=
        ⟨next.numbers, next.promises, next.called, next.pending⟩
      exact (settled.renumber marked rfl more).rejects rejects answered settled.arriving
  | broken failed rejects =>
      exact (settled.renumber next rfl more).rejects rejects answered settled.arriving
  | sent running fits whole =>
      refine settled.renumber ⟨next.numbers, next.promises, next.called, ?_⟩ rfl more
      intro entry member
      rcases List.mem_append.mp member with old | new
      · exact next.pending entry old
      · rw [List.mem_singleton.mp new]
        exact List.mem_append_right _ (List.mem_singleton_self _)

theorem Settled.lines {bridge : Bridge} (settled : Settled bridge) (output toPython : List Line) :
    Settled { bridge with worker := { bridge.worker with output }, toPython } :=
  ⟨⟨settled.numbered.numbers, settled.numbered.promises, settled.numbered.called,
    settled.numbered.pending⟩, settled.once, settled.own, settled.arriving⟩

theorem settled_step {before after : Bridge} {action : Action} (settled : Settled before)
    (moved : step runtimes before action = some after) : Settled after := by
  have answered : ∀ entry ∈ before.loop.answered, entry ∈ before.loop.answered :=
    fun _ member => member
  have same : Rejects before.worker before.worker := Rejects.refl _
  cases action with
  | request call =>
      cases moved
      exact settled.request call
  | report entries =>
      cases moved
      simp only [Worker.report]
      split
      · exact settled
      · split
        · exact settled
        · exact settled.lines _ _
  | abort =>
      cases moved
      exact settled.rejects (abort_rejects _) answered settled.arriving
  | write =>
      simp only [step] at moved
      split at moved
      · cases moved
      · cases moved
        exact settled.lines _ _
  | writeFails =>
      simp only [step] at moved
      split at moved
      · cases moved
      · cases moved
        have failed : Settled { before with
            worker := before.worker.failWrites before.worker.output } :=
          settled.rejects (failWrites_rejects _ before.worker) answered settled.arriving
        exact ⟨⟨failed.numbered.numbers, failed.numbered.promises, failed.numbered.called,
          failed.numbered.pending⟩, failed.once, failed.own, failed.arriving⟩
  | read =>
      simp only [step] at moved
      split at moved
      · next line rest _ _ =>
          cases moved
          have kept : (before.loop.read line).answered = before.loop.answered := by
            cases line with
            | report entries => rfl
            | request id call promise =>
                simp only [Loop.read]
                split
                · rfl
                · split <;> rfl
          exact settled.rejects same (fun _ member => kept.symm ▸ member)
            fun entry member => kept.symm ▸ settled.arriving entry member
      · cases moved
  | answer id answer =>
      simp only [step] at moved
      split at moved
      · cases moved
        have more : ∀ entry ∈ before.loop.answered,
            entry ∈ before.loop.answered ++ [(id, answer)] :=
          fun entry member => List.mem_append_left _ member
        refine settled.rejects same more ?_
        intro entry member
        rcases List.mem_append.mp member with old | new
        · exact List.mem_append_left _ (settled.arriving entry old)
        · exact List.mem_append_right _ new
      · cases moved
  | handlerRaises id error =>
      simp only [step] at moved
      split at moved
      · cases moved
        exact settled.rejects same answered settled.arriving
      · cases moved
  | cancel error =>
      simp only [step] at moved
      split at moved
      · cases moved
        exact settled.rejects same answered settled.arriving
      · cases moved
  | respond =>
      simp only [step] at moved
      split at moved
      · cases moved
      · next arriving =>
          cases moved
          exact settled.respond arriving
  | garble =>
      simp only [step] at moved
      split at moved
      · cases moved
      · next first rest arriving =>
          cases moved
          refine settled.rejects (abort_rejects _) answered ?_
          intro entry member
          exact settled.arriving entry (arriving ▸ List.mem_cons_of_mem first member)

end Promises

section Answers

structure AnsweredOnce (loop : Loop) : Prop where
  once : (loop.handlers ++ loop.answered.map Prod.fst).Nodup
  taken : ∀ id ∈ loop.handlers ++ loop.answered.map Prod.fst, id ≤ loop.sequence

theorem AnsweredOnce.read {loop : Loop} (answered : AnsweredOnce loop) (line : Line) :
    AnsweredOnce (loop.read line) := by
  cases line with
  | report entries => exact ⟨answered.once, answered.taken⟩
  | request id call promise =>
      simp only [Loop.read]
      by_cases next : id = loop.sequence + 1
      · rw [if_neg (not_not.mpr next)]
        have more : ∀ other ∈ loop.handlers ++ loop.answered.map Prod.fst,
            other ≤ loop.sequence + 1 := fun other member =>
          Nat.le_succ_of_le (answered.taken other member)
        split
        · exact ⟨answered.once, more⟩
        · have fresh : id ∉ loop.handlers ++ loop.answered.map Prod.fst := by
            intro member
            have := answered.taken id member
            omega
          constructor
          · rw [List.append_assoc, List.singleton_append, List.nodup_middle]
            exact List.nodup_cons.mpr ⟨fresh, answered.once⟩
          · intro other member
            rw [List.append_assoc] at member
            rcases List.mem_append.mp member with old | new
            · exact more other (List.mem_append_left _ old)
            · rcases List.mem_cons.mp new with rfl | old
              · exact Nat.le_of_eq next
              · exact more other (List.mem_append_right _ old)
      · rw [if_pos next]
        exact ⟨answered.once, answered.taken⟩

theorem AnsweredOnce.done {loop : Loop} (answered : AnsweredOnce loop) (id : Nat) :
    AnsweredOnce { loop with handlers := loop.handlers.filter (· ≠ id) } := by
  have fewer : (loop.handlers.filter (· ≠ id) ++ loop.answered.map Prod.fst).Sublist
      (loop.handlers ++ loop.answered.map Prod.fst) :=
    List.filter_sublist.append_right _
  exact ⟨answered.once.sublist fewer, fun other member => answered.taken other (fewer.subset member)⟩

theorem AnsweredOnce.answer {loop : Loop} (answered : AnsweredOnce loop) {id : Nat}
    (held : id ∈ loop.handlers) (answer : Answer) :
    AnsweredOnce { loop with
      handlers := loop.handlers.filter (· ≠ id)
      answered := loop.answered ++ [(id, answer)] } := by
  have done := answered.done id
  have fresh : id ∉ loop.handlers.filter (· ≠ id) ++ loop.answered.map Prod.fst := by
    intro member
    rcases List.mem_append.mp member with handler | old
    · simpa using (List.mem_filter.mp handler).2
    · exact List.disjoint_of_nodup_append answered.once held old
  constructor
  · rw [List.map_append, ← List.append_assoc]
    apply List.Nodup.append done.once (List.nodup_singleton id)
    intro other old new
    rw [List.mem_singleton.mp new] at old
    exact fresh old
  · intro other member
    rw [List.map_append, ← List.append_assoc] at member
    rcases List.mem_append.mp member with old | new
    · exact done.taken other old
    · rw [List.mem_singleton.mp new]
      exact answered.taken id (List.mem_append_left _ held)

theorem answeredOnce_step {before after : Bridge} {action : Action}
    (answered : AnsweredOnce before.loop) (moved : step runtimes before action = some after) :
    AnsweredOnce after.loop := by
  cases action with
  | request call | report entries | abort =>
      cases moved
      exact answered
  | write | writeFails | respond | garble =>
      simp only [step] at moved
      split at moved <;> cases moved
      exact answered
  | read =>
      simp only [step] at moved
      split at moved
      · next line rest _ _ =>
          cases moved
          exact answered.read line
      · cases moved
  | answer id answer =>
      simp only [step] at moved
      split at moved
      · next held =>
          cases moved
          exact answered.answer (List.contains_iff_mem.mp held) answer
      · cases moved
  | handlerRaises id error =>
      simp only [step] at moved
      split at moved
      · cases moved
        have done := answered.done id
        exact ⟨done.once, done.taken⟩
      · cases moved
  | cancel error =>
      simp only [step] at moved
      split at moved
      · cases moved
        exact ⟨answered.once, answered.taken⟩
      · cases moved

end Answers

section Order

def Orderly (runtimes : Runtimes) (bridge : Bridge) (action : Action) : Prop :=
  ∀ call, action = .request call → bridge.worker.refused ≠ [] →
    bridge.worker.aborted = true ∨ ¬ Fits runtimes bridge.worker call

/-- The numbers on their way are consecutive, and the last one that was given while none
is lost. -/
structure InOrder (bridge : Bridge) : Prop where
  numbers : ∃ n, bridge.loop.reached ++ requestIds bridge.toPython ++
      requestIds bridge.worker.output = List.range' 1 n ∧
    n ≤ bridge.worker.sequence ∧
    (bridge.worker.refused = [] → bridge.worker.broken = false → n = bridge.worker.sequence)
  received : bridge.loop.sequence = bridge.loop.reached.length
  expected : bridge.loop.stopped ≠ some (.rejected unexpectedRecord)

theorem requestIds_append (left right : List Line) :
    requestIds (left ++ right) = requestIds left ++ requestIds right := by
  induction left with
  | nil => rfl
  | cons line rest ih => cases line <;> simp [requestIds, ih]

theorem range_start {left right : List Nat} {n : Nat}
    (whole : left ++ right = List.range' 1 n) : left = List.range' 1 left.length := by
  obtain ⟨length, _, same, _⟩ := List.range'_eq_append_iff.mp whole.symm
  rw [same, List.length_range']

theorem InOrder.rejects {bridge : Bridge} (order : InOrder bridge) {worker : Worker}
    (rejects : Rejects bridge.worker worker) : InOrder { bridge with worker } := by
  obtain ⟨n, numbers, within, last⟩ := order.numbers
  refine ⟨⟨n, ?_, ?_, ?_⟩, order.received, order.expected⟩
  · rw [rejects.output]
    exact numbers
  · rw [rejects.sequence]
    exact within
  · rw [rejects.refused, rejects.broken, rejects.sequence]
    exact last

theorem InOrder.request {bridge : Bridge} (order : InOrder bridge) {call : Call}
    (orderly : Orderly runtimes bridge (.request call)) :
    InOrder { bridge with worker := bridge.worker.request runtimes call } := by
  obtain ⟨n, numbers, within, last⟩ := order.numbers
  have requested : Requested runtimes bridge.worker call (bridge.worker.request runtimes call) :=
    request_cases bridge.worker call
  generalize bridge.worker.request runtimes call = after at requested ⊢
  cases requested with
  | aborted closed rejects =>
      have called : InOrder { bridge with
          worker := { bridge.worker with calls := bridge.worker.calls + 1 } } :=
        ⟨⟨n, numbers, within, last⟩, order.received, order.expected⟩
      exact called.rejects rejects
  | refused large rejects =>
      have marked : InOrder { bridge with worker := { bridge.worker.numbered with
          refused := bridge.worker.refused ++ [bridge.worker.sequence + 1] } } :=
        ⟨⟨n, numbers, Nat.le_succ_of_le within, fun none => by simp at none⟩, order.received,
          order.expected⟩
      exact marked.rejects rejects
  | broken failed rejects =>
      have numbered : InOrder { bridge with worker := bridge.worker.numbered } :=
        ⟨⟨n, numbers, Nat.le_succ_of_le within, fun _ whole => by
          have : bridge.worker.broken = false := whole
          rw [failed] at this
          cases this⟩, order.received, order.expected⟩
      exact numbered.rejects rejects
  | sent running fits whole =>
      -- nothing was refused before, so the number is the next one on its way
      have none : bridge.worker.refused = [] := by
        by_contra some
        rcases orderly call rfl some with closed | large
        · rw [running] at closed
          cases closed
        · exact large fits
      have all : n = bridge.worker.sequence := last none whole
      refine ⟨⟨n + 1, ?_, by simp [Worker.numbered, all], fun _ _ => by simp [Worker.numbered, all]⟩,
        order.received, order.expected⟩
      rw [requestIds_append, ← List.append_assoc, numbers, List.range'_1_concat, all]
      simp [requestIds, Nat.add_comm]

theorem InOrder.read {bridge : Bridge} (order : InOrder bridge) {line : Line} {rest : List Line}
    (waiting : bridge.toPython = line :: rest) :
    InOrder { bridge with loop := bridge.loop.read line, toPython := rest } := by
  obtain ⟨n, numbers, within, last⟩ := order.numbers
  rw [waiting] at numbers
  cases line with
  | report entries => exact ⟨⟨n, numbers, within, last⟩, order.received, nofun⟩
  | request id call promise =>
      have shifted : (bridge.loop.reached ++ [id]) ++ requestIds rest ++
          requestIds bridge.worker.output = List.range' 1 n := by
        rw [← numbers]
        simp [requestIds]
      have beginning : bridge.loop.reached ++ [id] =
          List.range' 1 (bridge.loop.reached ++ [id]).length := by
        rw [List.append_assoc (bridge.loop.reached ++ [id])] at shifted
        exact range_start shifted
      have next : id = bridge.loop.sequence + 1 := by
        rw [List.length_append, List.length_singleton, List.range'_1_concat] at beginning
        have same := (List.append_inj' beginning rfl).2
        rw [order.received, List.singleton_inj.mp same, Nat.add_comm]
      have received : bridge.loop.sequence + 1 = (bridge.loop.reached ++ [id]).length := by
        rw [order.received, List.length_append, List.length_singleton]
      simp only [Loop.read]
      rw [if_neg (not_not.mpr next)]
      split
      · refine ⟨⟨n, shifted, within, last⟩, received, ?_⟩
        have other : protocolError "Pi worker exceeded the pending capability request limit" ≠
            unexpectedRecord := by decide
        intro same
        injection same with rejected
        injection rejected with error
        exact other error
      · exact ⟨⟨n, shifted, within, last⟩, received, order.expected⟩

theorem inOrder_step {before after : Bridge} {action : Action} (order : InOrder before)
    (orderly : Orderly runtimes before action) (moved : step runtimes before action = some after) :
    InOrder after := by
  obtain ⟨n, numbers, within, last⟩ := order.numbers
  cases action with
  | request call =>
      cases moved
      exact order.request orderly
  | report entries =>
      cases moved
      simp only [Worker.report]
      split
      · exact order
      · split
        · exact order
        · refine ⟨⟨n, ?_, within, last⟩, order.received, order.expected⟩
          rw [requestIds_append]
          simpa [requestIds] using numbers
  | abort =>
      cases moved
      exact order.rejects (abort_rejects _)
  | write =>
      simp only [step] at moved
      split at moved
      · cases moved
      · next line rest output =>
          cases moved
          refine ⟨⟨n, ?_, within, last⟩, order.received, order.expected⟩
          rw [← numbers, output, requestIds_append]
          cases line <;> simp [requestIds]
  | writeFails =>
      simp only [step] at moved
      split at moved
      · cases moved
      · cases moved
        have rejected := order.rejects (failWrites_rejects before.worker.output before.worker)
        have shorter : (before.loop.reached ++ requestIds before.toPython).length ≤ n := by
          have lengths := congrArg List.length numbers
          rw [List.length_append, List.length_range'] at lengths
          omega
        have kept := (failWrites_rejects before.worker.output before.worker).sequence
        refine ⟨⟨(before.loop.reached ++ requestIds before.toPython).length, ?_, ?_,
          fun _ whole => by cases whole⟩, order.received, order.expected⟩
        · rw [requestIds, List.append_nil]
          exact range_start numbers
        · rw [kept]
          exact Nat.le_trans shorter within
  | read =>
      simp only [step] at moved
      split at moved
      · next line rest _ waiting =>
          cases moved
          exact order.read waiting
      · cases moved
  | answer id answer =>
      simp only [step] at moved
      split at moved
      · cases moved
        exact ⟨order.numbers, order.received, order.expected⟩
      · cases moved
  | handlerRaises id error =>
      simp only [step] at moved
      split at moved
      · cases moved
        refine ⟨order.numbers, order.received, ?_⟩
        intro same
        cases stopped : before.loop.stopped with
        | none => simp [stopped] at same
        | some stop => exact order.expected (by simpa [stopped] using same)
      · cases moved
  | cancel error =>
      simp only [step] at moved
      split at moved
      · cases moved
        refine ⟨order.numbers, order.received, ?_⟩
        intro same
        cases same
      · cases moved
  | respond =>
      simp only [step] at moved
      split at moved
      · cases moved
      · next id answer rest _ =>
          cases moved
          unfold Worker.respond
          split
          · next entry _ =>
              have forgotten := order.rejects (forget_rejects before.worker id)
              obtain ⟨settled, same⟩ :=
                settle_fields (before.worker.forget id) entry.2 (.resolved answer)
              rw [same]
              exact ⟨forgotten.numbers, forgotten.received, forgotten.expected⟩
          · have rejected := order.rejects (abort_rejects before.worker)
            exact ⟨rejected.numbers, rejected.received, rejected.expected⟩
  | garble =>
      simp only [step] at moved
      split at moved
      · cases moved
      · cases moved
        have rejected := order.rejects (abort_rejects before.worker)
        exact ⟨rejected.numbers, rejected.received, rejected.expected⟩

end Order

structure Agreement (bridge : Bridge) : Prop where
  consecutive : bridge.loop.reached = List.range' 1 bridge.loop.reached.length
  expected : bridge.loop.stopped ≠ some (.rejected unexpectedRecord)
  answeredOnce : (bridge.loop.answered.map Prod.fst).Nodup
  numberedOnce : (bridge.worker.issued.map Prod.fst).Nodup ∧
    (bridge.worker.issued.map Prod.snd).Nodup
  settledOnce : (bridge.worker.settled.map Prod.fst).Nodup
  own : ∀ promise answer, (promise, .resolved answer) ∈ bridge.worker.settled →
    ∃ id, (id, promise) ∈ bridge.worker.issued ∧ (id, answer) ∈ bridge.loop.answered

/-- In a run in which no request is written after one that was refused for its size, the
two sides agree. -/
theorem request_ids_agree {final : Bridge} {events : List (Bridge × Action)}
    (run : Transitions.Run (step runtimes) {} events final)
    (orderly : ∀ event ∈ events, Orderly runtimes event.1 event.2) : Agreement final := by
  have settles : Transitions.Inductive (step runtimes) (Orderly runtimes) Settled :=
    ⟨fun settled _ moved => settled_step settled moved⟩
  have answers : Transitions.Inductive (step runtimes) (Orderly runtimes)
      fun bridge => AnsweredOnce bridge.loop :=
    ⟨fun answered _ moved => answeredOnce_step answered moved⟩
  have orders : Transitions.Inductive (step runtimes) (Orderly runtimes) InOrder :=
    ⟨fun order orderly moved => inOrder_step order orderly moved⟩
  have settled : Settled final :=
    settles.run run ⟨⟨rfl, List.nodup_nil, nofun, nofun⟩, List.nodup_nil, nofun, nofun⟩ orderly
  have answered : AnsweredOnce final.loop := answers.run run ⟨List.nodup_nil, nofun⟩ orderly
  have order : InOrder final :=
    orders.run run ⟨⟨0, rfl, Nat.le_refl 0, fun _ _ => rfl⟩, rfl, nofun⟩ orderly
  obtain ⟨n, numbers, _, _⟩ := order.numbers
  rw [List.append_assoc] at numbers
  refine ⟨range_start numbers, order.expected, (List.nodup_append.mp answered.once).2.1, ⟨?_,
    settled.numbered.promises⟩, settled.once, settled.own⟩
  rw [settled.numbered.numbers]
  exact List.nodup_range'

section Samples

def one : NodeNumber := some ⟨(1 : ℤ), exact_one⟩

/-- The number `1e20`, of which `JSON.stringify` writes 21 digits. -/
def hundredQuintillion : NodeNumber :=
  some ⟨(5 ^ 20 * 2 ^ 20 : ℤ), exact_of_shifted (by decide) (by decide)⟩

def prepareCall : Call where
  kind := text "prepare_request"
  data := [(text "turn", .number one)]

def modelEndCall : Call where
  kind := text "model_end"
  data := [(text "turn", .number one), (text "stop_reason", .string (text "toolUse"))]

def largeCall (count : Nat) : Call where
  kind := text "tool_call"
  data := [(text "arguments", .array (List.replicate (count + 1) (.number hundredQuintillion)))]

theorem renderItems_replicate {Number : Type} (numeral : Number → List Char) (number : Number)
    (count : Nat) : (renderItems numeral (List.replicate count (.number number))).length =
      count * ((numeral number).length + 1) + 1 := by
  induction count with
  | zero => simp [renderItems]
  | succ count ih =>
      simp only [List.replicate_succ, renderItems, render, List.cons_append, List.length_cons,
        List.length_append, ih]
      ring

theorem length_le_utf8Size (text : List Char) : text.length ≤ utf8Size text := by
  induction text with
  | nil => exact Nat.le_refl 0
  | cons c rest ih =>
      have positive : 0 < c.utf8Size := Char.utf8Size_pos c
      simp only [utf8Size, List.map_cons, List.sum_cons, List.length_cons] at ih ⊢
      omega

theorem largeCall_refused (id : Nat) {count : Nat} (many : 400000 ≤ count) :
    send sampleRuntimes (requestRecord id (largeCall count)) =
      .error "protocol_record_too_large" := by
  have digits : (orNull sampleText hundredQuintillion).length = 21 := by decide +kernel
  have record : requestRecord id (largeCall count) =
      .object ([(text "type", .string (text "request")), (text "id", .string (text (toString id))),
        (text "kind", .string (largeCall count).kind)] ++ (largeCall count).data) :=
    dictionary_once (by
      have keys : [text "type", text "id", text "kind", text "arguments"].Nodup := by decide
      exact keys)
  have long : maxRecordBytes <
      (stringify sampleRuntimes (requestRecord id (largeCall count))).length := by
    rw [record, largeCall, List.replicate_succ]
    have items := renderItems_replicate (orNull sampleText) hundredQuintillion count
    rw [digits] at items
    simp only [stringify, sampleRuntimes, List.cons_append, List.nil_append, render, renderEntries,
      List.length_cons, List.length_append, items, digits, maxRecordBytes]
    omega
  have large : utf8Size (stringify sampleRuntimes (requestRecord id (largeCall count)) ++ ['\n']) >
      maxRecordBytes := by
    have size := length_le_utf8Size
      (stringify sampleRuntimes (requestRecord id (largeCall count)) ++ ['\n'])
    rw [List.length_append] at size
    omega
  simp only [send]
  rw [if_pos large]

theorem largeCall_request {count : Nat} (many : 400000 ≤ count) {worker : Worker}
    (running : worker.aborted = false) : ∃ settled,
      Worker.request sampleRuntimes (largeCall count) worker = { worker with
        calls := worker.calls + 1
        sequence := worker.sequence + 1
        issued := worker.issued ++ [(worker.sequence + 1, worker.calls)]
        refused := worker.refused ++ [worker.sequence + 1]
        settled } := by
  have sending := largeCall_refused (worker.sequence + 1) many
  simp only [Worker.request, running, Bool.false_eq_true, if_false, sending]
  exact settle_fields _ _ _

structure Idle (bridge : Bridge) : Prop where
  running : bridge.worker.aborted = false
  whole : bridge.worker.broken = false
  written : bridge.worker.output = []
  read : bridge.toPython = []
  going : bridge.loop.stopped = none

theorem Idle.reaches {bridge : Bridge} (idle : Idle bridge) {line : List Char}
    (sent : send sampleRuntimes (requestRecord (bridge.worker.sequence + 1) prepareCall) =
      .ok line) :
    ∃ events final, Transitions.Run (step sampleRuntimes) bridge events final ∧
      final.loop.reached = bridge.loop.reached ++ [bridge.worker.sequence + 1] := by
  have passed : (Transitions.replay (step sampleRuntimes) bridge
      [.request prepareCall, .write, .read]).any (fun outcome => decide
        (outcome.2.loop.reached = bridge.loop.reached ++ [bridge.worker.sequence + 1])) = true := by
    obtain ⟨running, whole, written, read, going⟩ := idle
    simp only [Transitions.replay, step, Worker.request, running, sent, whole, written, read, going,
      Bool.false_eq_true, if_false, List.nil_append, Option.map_some, Option.any_some,
      decide_eq_true_eq, Loop.read]
    split
    · rfl
    · split <;> rfl
  obtain ⟨events, final, run, reached⟩ := Transitions.replay_checked passed
  exact ⟨events, final, run, of_decide_eq_true reached⟩

theorem Idle.refuses {bridge : Bridge} (idle : Idle bridge) :
    ∃ after, step sampleRuntimes bridge (.request (largeCall 400000)) = some after ∧
      Idle after ∧ after.worker.sequence = bridge.worker.sequence + 1 ∧
      after.loop = bridge.loop := by
  obtain ⟨settled, refused⟩ := largeCall_request (Nat.le_refl 400000) idle.running
  rw [step, refused]
  exact ⟨_, rfl, ⟨idle.running, idle.whole, idle.written, idle.read, idle.going⟩, rfl, rfl⟩

def modelTurn : List Action :=
  [.request prepareCall, .write, .read, .answer 1 .null, .respond,
    .request modelEndCall, .write, .read, .answer 2 .null, .respond]

def betweenCalls (bridge : Bridge) : Bool :=
  !bridge.worker.aborted && !bridge.worker.broken && bridge.worker.output.isEmpty &&
    bridge.toPython.isEmpty && bridge.loop.stopped.isNone && bridge.worker.sequence == 2 &&
    bridge.loop.reached == [1, 2]

theorem betweenCalls_idle {bridge : Bridge} (between : betweenCalls bridge = true) :
    Idle bridge ∧ bridge.worker.sequence = 2 ∧ bridge.loop.reached = [1, 2] := by
  simp only [betweenCalls, Bool.and_eq_true, Bool.not_eq_true', List.isEmpty_iff,
    Option.isNone_iff_eq_none, beq_iff_eq] at between
  obtain ⟨⟨⟨⟨⟨⟨running, whole⟩, written⟩, read⟩, going⟩, two⟩, reached⟩ := between
  exact ⟨⟨running, whole, written, read, going⟩, two, reached⟩

theorem prepareCall_sent : ∃ line,
    send sampleRuntimes (requestRecord 4 prepareCall) = .ok line := by
  have fits : (send sampleRuntimes (requestRecord 4 prepareCall)).isOk = true := by
    decide +kernel
  cases sending : send sampleRuntimes (requestRecord 4 prepareCall) with
  | error error =>
      rw [sending] at fits
      cases fits
  | ok line => exact ⟨line, rfl⟩

end Samples

/-- After a model turn a tool call takes number 3 and is refused for its size. The next turn
begins with number 4, which Python does not expect. -/
theorem refused_request_breaks_order : ∃ events final,
    Transitions.Run (step sampleRuntimes) {} events final ∧ ¬ Agreement final := by
  have turned : (Transitions.replay (step sampleRuntimes) {} modelTurn).any
      (fun outcome => betweenCalls outcome.2) = true := by
    decide +kernel
  obtain ⟨events, bridge, turn, between⟩ := Transitions.replay_checked turned
  obtain ⟨idle, two, reached⟩ : Idle bridge ∧ _ := betweenCalls_idle between
  obtain ⟨refused, call, still, three, loop⟩ := idle.refuses
  rw [two] at three
  obtain ⟨line, sent⟩ := prepareCall_sent
  rw [show 4 = refused.worker.sequence + 1 by rw [three]] at sent
  obtain ⟨later, final, rest, numbers⟩ := still.reaches sent
  refine ⟨_, final, turn.append (.next call rest), ?_⟩
  intro agreement
  have consecutive := agreement.consecutive
  rw [numbers, loop, reached, three] at consecutive
  cases consecutive

/-- A request, its answer and the settlement of its promise. -/
theorem request_ids_agree_prepared : ∃ events final,
    Transitions.Run (step sampleRuntimes) {} events final ∧ events.length = 5 ∧
    Agreement final := by
  have passed : (Transitions.replay (step sampleRuntimes) {}
      [.request prepareCall, .write, .read, .answer 1 .null, .respond]).any (fun outcome =>
        outcome.1.length == 5 && outcome.1.all fun event => event.1.worker.refused.isEmpty) =
      true := by
    decide +kernel
  obtain ⟨events, final, run, checked⟩ := Transitions.replay_checked passed
  simp only [Bool.and_eq_true, beq_iff_eq, List.all_eq_true, List.isEmpty_iff] at checked
  refine ⟨events, final, run, checked.1, request_ids_agree run ?_⟩
  intro event member call _ refused
  exact absurd (checked.2 event member) refused

end AgentTaskPlatform.PiBridge
