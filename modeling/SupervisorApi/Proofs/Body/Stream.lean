import Mathlib.Data.List.Infix
import SupervisorApi.Body.Incoming
import SupervisorApi.Proofs.Body.Frames

set_option autoImplicit false

namespace SupervisorApi

namespace IncomingBody

def chunks (b : IncomingBody) : List Bytes :=
  (b.events.map dataOf).filter (· ≠ [])

def faults (b : IncomingBody) : List Frame :=
  match b.ending with
  | .broken text => [.error (ByteStream.failure text)]
  | .complete | .silent => []

def collected (b : IncomingBody) (left : List Bytes) : Awaited Frame :=
  match b.ending with
  | .complete => .now (.ok left.flatten)
  | .broken text => .now (.error (ByteStream.failure text))
  | .silent => .never

theorem flatten_chunks (b : IncomingBody) : b.chunks.flatten = b.bytes := by
  rw [chunks, List.flatten_filter_ne_nil, bytes, List.flatMap_def]

end IncomingBody

namespace ByteStream

/-- One poll of a stream: what its body answers meanwhile, what comes of it, and how it leaves the
stream. -/
inductive Polls : ByteStream → List BodyAnswer → Poll Frame → ByteStream → Prop where
  | latched {s : ByteStream} (done : s.done = true) : Polls s [] .ended s
  | passed {s t : ByteStream} {body : IncomingBody} {a : BodyAnswer} {answers : List BodyAnswer}
      {p : Poll Frame} (fresh : ¬ s.done = true) (given : s.body.poll = (a, body))
      (nothing : a = .data [] ∨ a = .trailers) (rest : Polls { s with body := body } answers p t) :
    Polls s (a :: answers) p t
  | chunk {s : ByteStream} {body : IncomingBody} {bytes : Bytes} (fresh : ¬ s.done = true)
      (given : s.body.poll = (.data bytes, body)) (something : bytes ≠ []) :
    Polls s [.data bytes] (.item (.ok bytes)) { s with body := body }
  | waits {s : ByteStream} {body : IncomingBody} (fresh : ¬ s.done = true)
      (given : s.body.poll = (.pending, body)) : Polls s [.pending] .pending { s with body := body }
  | broken {s : ByteStream} {body : IncomingBody} {text : String} (fresh : ¬ s.done = true)
      (given : s.body.poll = (.broken text, body)) :
    Polls s [.broken text] (.item (.error (failure text))) { s with body := body, done := true }
  | ended {s : ByteStream} {body : IncomingBody} (fresh : ¬ s.done = true)
      (given : s.body.poll = (.ended, body)) :
    Polls s [.ended] .ended { s with body := body, done := true }

def isPassed (event : BodyEvent) : Bool :=
  event = .data [] || event = .trailers

def asked (s : ByteStream) : List BodyAnswer :=
  if s.done then []
  else
    (s.body.events.takeWhile isPassed).map .ofEvent ++
      [((s.body.events.dropWhile isPassed).head?.map .ofEvent).getD (.ofEnd s.body.ending)]

variable {s t : ByteStream} {body : IncomingBody} {p : Poll Frame}

theorem asked_passed {a : BodyAnswer} (fresh : ¬ s.done = true) (given : s.body.poll = (a, body))
    (nothing : a = .data [] ∨ a = .trailers) :
    s.asked = a :: asked { s with body := body } := by
  have gives := IncomingBody.gives_of_poll given
  rcases nothing with rfl | rfl <;> obtain ⟨here, ending⟩ := gives <;>
    simp [asked, fresh, here, ending, isPassed, BodyAnswer.ofEvent]

theorem asked_last {a : BodyAnswer} (fresh : ¬ s.done = true) (given : s.body.poll = (a, body))
    (last : a ≠ .data [] ∧ a ≠ .trailers) : s.asked = [a] := by
  have gives := IncomingBody.gives_of_poll given
  cases a with
  | data bytes =>
    have kept : bytes ≠ [] := fun empty => last.1 (by rw [empty])
    simp [asked, fresh, gives.1, isPassed, kept, BodyAnswer.ofEvent]
  | trailers => exact absurd rfl last.2
  | pending =>
    rcases gives with ⟨here, -⟩ | ⟨here, ending, -⟩
    · simp [asked, fresh, here, isPassed, BodyAnswer.ofEvent]
    · simp [asked, fresh, here, ending, BodyAnswer.ofEnd]
  | broken | ended => simp [asked, fresh, gives.1, gives.2.1, BodyAnswer.ofEnd]

theorem polls_asked (s : ByteStream) : Polls s s.asked s.poll.1 s.poll.2 := by
  fun_induction poll s with
  | case1 s done =>
    rw [asked, if_pos done]
    exact .latched done
  | case2 s fresh body waits =>
    rw [asked_last fresh waits (by simp)]
    exact .waits fresh waits
  | case3 s fresh b bs body gives =>
    rw [asked_last fresh gives (by simp)]
    exact .chunk fresh gives (by simp)
  | case4 s fresh body gives ih =>
    rw [asked_passed fresh gives (by simp)]
    exact .passed fresh gives (by simp) ih
  | case5 s fresh body gives ih =>
    rw [asked_passed fresh gives (by simp)]
    exact .passed fresh gives (by simp) ih
  | case6 s fresh body text breaks =>
    rw [asked_last fresh breaks (by simp)]
    exact .broken fresh breaks
  | case7 s fresh body ends =>
    rw [asked_last fresh ends (by simp)]
    exact .ended fresh ends

def answer? : BodyEvent → Option (Poll Frame)
  | .pending => some .pending
  | .data [] | .trailers => none
  | .data bytes => some (.item (.ok bytes))

def answers (s : ByteStream) : List (Poll Frame) :=
  if s.done then [] else s.body.events.filterMap answer? ++ s.body.faults.map .item

def idle (s : ByteStream) : Poll Frame :=
  if !s.done && s.body.ending = .silent then .pending else .ended

def items (s : ByteStream) : List Frame :=
  s.answers.filterMap Poll.item?

def after : Nat → ByteStream → ByteStream
  | 0, s => s
  | n + 1, s => after n s.poll.2

def given (n : Nat) (s : ByteStream) : List Frame :=
  (List.range n).filterMap fun k => (s.after k).poll.1.item?

theorem answers_passed {a : BodyAnswer} (fresh : ¬ s.done = true) (given : s.body.poll = (a, body))
    (nothing : a = .data [] ∨ a = .trailers) :
    answers { s with body := body } = s.answers ∧ idle { s with body := body } = s.idle := by
  have gives := IncomingBody.gives_of_poll given
  rcases nothing with rfl | rfl <;> obtain ⟨here, ending⟩ := gives <;>
    simp [answers, idle, answer?, IncomingBody.faults, List.filterMap_cons, fresh, here, ending]

theorem poll_answers (s : ByteStream) :
    s.poll.1 = s.answers.head?.getD s.idle ∧ s.poll.2.answers = s.answers.tail ∧
      s.poll.2.idle = s.idle := by
  fun_induction poll s with
  | case1 s done => simp [answers, idle, done]
  | case2 s fresh body waits =>
    rcases IncomingBody.gives_of_poll waits with ⟨here, ending⟩ | ⟨here, ending, rfl⟩
    · simp [answers, idle, answer?, IncomingBody.faults, fresh, here, ending]
    · simp [answers, idle, IncomingBody.faults, fresh, here, ending]
  | case3 s fresh b bs body gives =>
    obtain ⟨here, ending⟩ := IncomingBody.gives_of_poll gives
    simp [answers, idle, answer?, IncomingBody.faults, fresh, here, ending]
  | case4 s fresh body gives ih | case5 s fresh body gives ih =>
    obtain ⟨answers, idle⟩ := answers_passed fresh gives (by simp)
    rw [answers, idle] at ih
    exact ih
  | case6 s fresh body text breaks | case7 s fresh body breaks =>
    obtain ⟨here, ending, rfl⟩ := IncomingBody.gives_of_poll breaks
    simp [answers, idle, IncomingBody.faults, fresh, here, ending]

theorem ended_not_mem_answers (s : ByteStream) : .ended ∉ s.answers := by
  have arriving : .ended ∉ s.body.events.filterMap answer? := by
    simp only [List.mem_filterMap, not_exists, not_and]
    rintro (_ | (_ | ⟨b, bs⟩) | _) - <;> simp [answer?]
  unfold answers
  split <;> simp [arriving]

theorem after_succ (n : Nat) (s : ByteStream) : s.after (n + 1) = (s.after n).poll.2 := by
  induction n generalizing s with
  | zero => rfl
  | succ n ih => exact ih s.poll.2

theorem answers_after (n : Nat) (s : ByteStream) :
    (s.after n).answers = s.answers.drop n ∧ (s.after n).idle = s.idle := by
  induction n generalizing s with
  | zero => exact ⟨rfl, rfl⟩
  | succ n ih =>
    obtain ⟨answers, idle⟩ := ih s.poll.2
    rw [after, answers, idle, (poll_answers s).2.1, (poll_answers s).2.2, List.drop_tail]
    exact ⟨rfl, rfl⟩

theorem poll_after (n : Nat) (s : ByteStream) :
    (s.after n).poll.1 = s.answers[n]?.getD s.idle := by
  rw [(poll_answers _).1, (answers_after n s).1, (answers_after n s).2, List.head?_drop]

theorem item?_idle (s : ByteStream) : s.idle.item? = none := by
  unfold idle
  split <;> rfl

theorem given_eq (n : Nat) (s : ByteStream) :
    s.given n = (s.answers.take n).filterMap Poll.item? := by
  induction n with
  | zero => rfl
  | succ n ih =>
    have before : ((List.range n).filterMap fun k => (s.after k).poll.1.item?) = s.given n := rfl
    rw [given, List.range_succ, List.filterMap_append, before, ih, List.take_add_one,
      List.filterMap_append]
    cases held : s.answers[n]? with
    | some answer => simp [List.filterMap_cons, poll_after, held]
    | none => simp [poll_after, held, item?_idle]

theorem given_items (n : Nat) (s : ByteStream) : s.given n ++ (s.after n).items = s.items := by
  rw [given_eq, items, (answers_after n s).1, ← List.filterMap_append, List.take_append_drop]
  rfl

theorem items_events (events : List BodyEvent) :
    (events.filterMap answer?).filterMap Poll.item? =
      ((events.map IncomingBody.dataOf).filter (· ≠ [])).map .ok := by
  induction events with
  | nil => rfl
  | cons event rest ih =>
    rcases event with _ | (_ | ⟨b, bs⟩) | _ <;>
      simp only [List.filterMap_cons, answer?, Poll.item?, ih] <;> simp [IncomingBody.dataOf]

theorem items_of_fresh (fresh : ¬ s.done = true) :
    s.items = s.body.chunks.map .ok ++ s.body.faults := by
  rw [items, answers, if_neg fresh, List.filterMap_append, items_events, List.filterMap_map]
  exact congrArg _ List.filterMap_some

theorem items_of_poll (polled : s.poll = (p, t)) :
    s.items = p.item?.toList ++ t.items ∧ t.idle = s.idle := by
  obtain ⟨first, rest, idle⟩ := poll_answers s
  simp only [polled] at first rest idle
  refine ⟨?_, idle⟩
  rw [items, items, rest, first]
  cases s.answers with
  | nil => simp [item?_idle]
  | cons answer more => cases answer <;> simp [List.filterMap_cons, Poll.item?]

theorem items_of_ended (polled : s.poll = (.ended, t)) : s.items = [] ∧ s.idle = .ended := by
  have first := (poll_answers s).1
  rw [polled] at first
  cases left : s.answers with
  | nil => exact ⟨by rw [items, left]; rfl, by simpa [left] using first.symm⟩
  | cons answer more =>
    have ended : answer = .ended := by simpa [left] using first.symm
    exact absurd (ended ▸ left ▸ List.mem_cons_self) (ended_not_mem_answers s)

theorem fresh_of_pending (polled : s.poll = (.pending, t)) : ¬ t.done = true := by
  fun_induction poll s with
  | case1 | case3 | case6 | case7 => cases polled
  | case2 s fresh =>
    cases polled
    exact fresh
  | case4 s fresh body gives ih | case5 s fresh body gives ih => exact ih polled

theorem items_of_stuck (fresh : ¬ s.done = true) (stuck : s.body.isStuck = true) :
    s.items = [] ∧ s.idle = .pending := by
  simp only [IncomingBody.isStuck, Bool.and_eq_true, List.isEmpty_iff, decide_eq_true_eq] at stuck
  obtain ⟨none, silent⟩ := stuck
  simp [items, answers, idle, IncomingBody.faults, fresh, none, silent]

theorem next_of_item {a : Frame} {more : List Frame} (held : s.items = a :: more) :
    ∃ t, s.next = .now (some a, t) ∧ t.items = more ∧ t.idle = s.idle := by
  fun_induction next s with
  | case1 s b t polled =>
    obtain ⟨items, idle⟩ := items_of_poll polled
    obtain ⟨rfl, rfl⟩ := List.cons.inj (items.symm.trans held)
    exact ⟨t, rfl, rfl, idle⟩
  | case2 s t polled => simp [(items_of_ended polled).1] at held
  | case3 s t polled stuck =>
    have none := (items_of_stuck (fresh_of_pending polled) stuck).1
    simp [(items_of_poll polled).1, none, Poll.item?] at held
  | case4 s t polled _ ih =>
    obtain ⟨items, idle⟩ := items_of_poll polled
    rw [← idle]
    exact ih (items.symm.trans held)

theorem next_of_ended (given : s.items = []) (ended : s.idle = .ended) :
    ∃ t, s.next = .now (none, t) := by
  fun_induction next s with
  | case1 s b t polled => simp [(items_of_poll polled).1, Poll.item?] at given
  | case2 s t => exact ⟨t, rfl⟩
  | case3 s t polled stuck =>
    have waits := (items_of_stuck (fresh_of_pending polled) stuck).2
    simp [(items_of_poll polled).2, ended] at waits
  | case4 s t polled _ ih =>
    obtain ⟨items, idle⟩ := items_of_poll polled
    exact ih (items.symm.trans given) (idle.trans ended)

theorem next_of_pending (given : s.items = []) (waits : s.idle = .pending) : s.next = .never := by
  fun_induction next s with
  | case1 s b t polled => simp [(items_of_poll polled).1, Poll.item?] at given
  | case2 s t polled => simp [(items_of_ended polled).2] at waits
  | case3 => rfl
  | case4 s t polled _ ih =>
    obtain ⟨items, idle⟩ := items_of_poll polled
    exact ih (items.symm.trans given) (idle.trans waits)

theorem drainFrom_of_next {chunk data : Bytes} (taken : s.next = .now (some (.ok chunk), t)) :
    s.drainFrom data = t.drainFrom (data ++ chunk) := by
  rw [drainFrom]
  split <;> simp_all

theorem drainFrom_append {chunks : List Bytes} {left : List Frame} (data : Bytes)
    (held : s.items = chunks.map .ok ++ left) :
    ∃ t : ByteStream, s.drainFrom data = t.drainFrom (data ++ chunks.flatten) ∧ t.items = left ∧
      t.idle = s.idle := by
  induction chunks generalizing s data with
  | nil => exact ⟨s, by simp, held, rfl⟩
  | cons chunk rest ih =>
    obtain ⟨t, taken, items, idle⟩ := next_of_item held
    obtain ⟨u, read, left, same⟩ := ih (data ++ chunk) items
    refine ⟨u, ?_, left, same.trans idle⟩
    rw [drainFrom_of_next taken, read, List.flatten_cons, List.append_assoc]

theorem drainFrom_all {chunks : List Bytes} (data : Bytes) (held : s.items = chunks.map .ok) :
    ∃ t : ByteStream, s.drainFrom data = t.drainFrom (data ++ chunks.flatten) ∧ t.items = [] ∧
      t.idle = s.idle :=
  drainFrom_append data (held.trans (List.append_nil _).symm)

theorem collect_of_ended {chunks : List Bytes} (held : s.items = chunks.map .ok)
    (ended : s.idle = .ended) : s.collect = .now (.ok chunks.flatten) := by
  obtain ⟨t, read, left, idle⟩ := drainFrom_all [] held
  obtain ⟨u, taken⟩ := next_of_ended left (idle.trans ended)
  rw [collect, drain, read, drainFrom]
  split <;> simp_all [Awaited.map]

theorem collect_of_pending {chunks : List Bytes} (held : s.items = chunks.map .ok)
    (waits : s.idle = .pending) : s.collect = .never := by
  obtain ⟨t, read, left, idle⟩ := drainFrom_all [] held
  have never := next_of_pending left (idle.trans waits)
  rw [collect, drain, read, drainFrom]
  split <;> simp_all [Awaited.map]

theorem collect_of_error {chunks : List Bytes} {e : ApiError}
    (held : s.items = chunks.map .ok ++ [.error e]) : s.collect = .now (.error e) := by
  obtain ⟨t, read, left, -⟩ := drainFrom_append [] held
  obtain ⟨u, taken, -⟩ := next_of_item left
  rw [collect, drain, read, drainFrom]
  split <;> simp_all [Awaited.map]

theorem poll_of_done (done : s.done = true) : s.poll = (.ended, s) := by
  rw [poll, if_pos done]

theorem done_of_poll (polled : s.poll = (p, t))
    (last : p = .ended ∨ ∃ e, p = .item (.error e)) : t.done = true := by
  fun_induction poll s with
  | case1 s done =>
    cases polled
    exact done
  | case2 | case3 =>
    cases polled
    simp at last
  | case4 s fresh body gives ih | case5 s fresh body gives ih => exact ih polled
  | case6 | case7 =>
    cases polled
    rfl

theorem done_after {m n : Nat} (later : m < n)
    (last : (s.after m).poll.1 = .ended ∨ ∃ e, (s.after m).poll.1 = .item (.error e)) :
    (s.after n).done = true := by
  induction n, later using Nat.le_induction with
  | base =>
    rw [after_succ]
    exact done_of_poll rfl last
  | succ n _ ih =>
    rw [after_succ, poll_of_done ih]
    exact ih

variable {b : IncomingBody} {length : Option Nat}

theorem items_ofBody (b : IncomingBody) (length : Option Nat) :
    (ofBody b length).items = b.chunks.map .ok ++ b.faults :=
  items_of_fresh Bool.false_ne_true

theorem idle_ofBody (b : IncomingBody) (length : Option Nat) :
    (ofBody b length).idle = if b.ending = .silent then .pending else .ended := by
  unfold idle ofBody
  cases b.ending <;> rfl

theorem error_of_mem_faults {frame : Frame} (member : frame ∈ b.faults) :
    ∃ text, frame = .error (failure text) ∧ b.ending = .broken text := by
  cases ending : b.ending with
  | broken text => exact ⟨text, by simpa [IncomingBody.faults, ending] using member, rfl⟩
  | complete | silent => simp [IncomingBody.faults, ending] at member

-- As long as no error has been handed out, what is still to come is the other chunks and the fault.
theorem items_after {n : Nat} (good : ∀ e, .error e ∉ (ofBody b length).given n) :
    ∃ taken left, (ofBody b length).given n = taken.map .ok ∧ b.chunks = taken ++ left ∧
      ((ofBody b length).after n).items = left.map .ok ++ b.faults := by
  have whole := (given_items n (ofBody b length)).trans (items_ofBody b length)
  rcases List.append_eq_append_iff.mp whole with ⟨more, chunks, items⟩ | ⟨faults, given, here⟩
  · obtain ⟨taken, left, split, before, behind⟩ := List.map_eq_append_iff.mp chunks
    exact ⟨taken, left, before.symm, split, by rw [items, behind]⟩
  · cases faults with
    | nil =>
      refine ⟨b.chunks, [], by simpa using given, by simp, ?_⟩
      simpa using here.symm
    | cons fault rest =>
      have member : fault ∈ b.faults := by simp [here]
      obtain ⟨text, rfl, -⟩ := error_of_mem_faults member
      exact absurd (by simp [given]) (good (failure text))

theorem items_of_failed {n : Nat} {e : ApiError} (failed : .error e ∈ (ofBody b length).given n) :
    (∃ text, b.ending = .broken text) ∧ ((ofBody b length).after n).items = [] := by
  have whole := (given_items n (ofBody b length)).trans (items_ofBody b length)
  rcases List.append_eq_append_iff.mp whole with ⟨more, chunks, -⟩ | ⟨faults, given, here⟩
  · have chunk := chunks ▸ List.mem_append_left more failed
    simp at chunk
  · have fault : .error e ∈ faults := by simpa [given] using failed
    have member : .error e ∈ b.faults := by simp [here, fault]
    obtain ⟨text, -, broken⟩ := error_of_mem_faults member
    refine ⟨⟨text, broken⟩, ?_⟩
    cases faults with
    | nil => cases fault
    | cons first rest =>
      rw [IncomingBody.faults, broken, List.cons_append] at here
      exact (List.append_eq_nil_iff.mp (List.cons.inj here).2.symm).2

theorem collect_after {n : Nat} {left : List Bytes}
    (items : ((ofBody b length).after n).items = left.map .ok ++ b.faults) :
    ((ofBody b length).after n).collect = b.collected left := by
  have idle := (answers_after n (ofBody b length)).2.trans (idle_ofBody b length)
  cases ending : b.ending with
  | complete =>
    simp only [IncomingBody.faults, IncomingBody.collected, ending] at items idle ⊢
    exact collect_of_ended (by simpa using items) (by simpa using idle)
  | broken =>
    simp only [IncomingBody.faults, IncomingBody.collected, ending] at items ⊢
    exact collect_of_error items
  | silent =>
    simp only [IncomingBody.faults, IncomingBody.collected, ending] at items idle ⊢
    exact collect_of_pending (by simpa using items) (by simpa using idle)

/-- What a stream makes of a body. Its polls give what comes of the body in turn, and then its end for
ever; in all they hand out the chunks that are not empty, and an error behind them if the body breaks
off. Each poll asks the body as it should, and none asks it after an end or an error. Reading the rest
at once gives the chunks that are left, or the error of a body that breaks off, unless that has been
handed out before. -/
theorem exact_and_fused (b : IncomingBody) (length : Option Nat) :
    let s := ofBody b length
    (∀ n, (s.after n).poll.1 = (b.events.filterMap answer? ++ b.faults.map .item)[n]?.getD
      (if b.ending = .silent then .pending else .ended)) ∧
    (∃ enough, ∀ n, enough ≤ n → s.given n = b.chunks.map .ok ++ b.faults) ∧
    (∀ n, Polls (s.after n) (s.after n).asked (s.after n).poll.1 (s.after (n + 1))) ∧
    (∀ m n, m < n →
      (s.after m).poll.1 = .ended ∨ (∃ e, (s.after m).poll.1 = .item (.error e)) →
        (s.after n).poll.1 = .ended ∧ (s.after n).asked = []) ∧
    (∀ n, (∀ e, .error e ∉ s.given n) → ∃ taken left, s.given n = taken.map .ok ∧
      b.chunks = taken ++ left ∧ (s.after n).collect = b.collected left) ∧
    (∀ n e, .error e ∈ s.given n → (s.after n).collect = .now (.ok [])) := by
  intro s
  refine ⟨fun n => ?_, ⟨s.answers.length, fun n enough => ?_⟩, fun n => ?_, ?_, ?_, ?_⟩
  · rw [poll_after, idle_ofBody]
    rfl
  · rw [given_eq, List.take_of_length_le enough]
    exact items_ofBody b length
  · rw [after_succ]
    exact polls_asked _
  · intro m n later last
    have done := done_after later last
    rw [poll_of_done done, asked, if_pos done]
    exact ⟨rfl, rfl⟩
  · intro n good
    obtain ⟨taken, left, given, split, items⟩ := items_after good
    exact ⟨taken, left, given, split, collect_after items⟩
  · intro n e failed
    obtain ⟨⟨text, broken⟩, items⟩ := items_of_failed failed
    have idle := (answers_after n s).2.trans (idle_ofBody b length)
    have ended : ((ofBody b length).after n).idle = .ended := by simpa [broken] using idle
    exact collect_of_ended (items.trans (List.map_nil).symm) ended

end ByteStream

end SupervisorApi
