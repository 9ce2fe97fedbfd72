import Mathlib.Data.List.Infix
import SupervisorApi.Body.Basic

set_option autoImplicit false

namespace SupervisorApi

abbrev Frame := Except ApiError Bytes

def Poll.item? {α : Type} : Poll α → Option α
  | .item a => some a
  | .pending | .ended => none

namespace Arrival

def chunk? : Arrival → Option Bytes
  | .chunk bytes => some bytes
  | .pending | .fault _ => none

def fault? : Arrival → Option String
  | .fault text => some text
  | .pending | .chunk _ => none

def isFault (a : Arrival) : Bool :=
  a.fault?.isSome

def answer? : Arrival → Option (Poll Frame)
  | .pending => some .pending
  | .chunk [] | .fault _ => none
  | .chunk bytes => some (.item (.ok bytes))

def beforeFault (arrivals : List Arrival) : List Arrival :=
  arrivals.takeWhile fun a => !a.isFault

end Arrival

open Arrival

namespace UploadFrames

def ofFrame (frame : Option Bytes) : List Frame :=
  frame.toList.map .ok

def ending (tail : Option Bytes) (arrivals : List Arrival) : List Frame :=
  match arrivals.findSome? fault? with
  | some text => [.error (.encode ("reading upload failed: " ++ text))]
  | none => ofFrame tail

def fileAnswers (tail : Option Bytes) (arrivals : List Arrival) : List (Poll Frame) :=
  (beforeFault arrivals).filterMap answer? ++ (ending tail arrivals).map .item

def answers (f : UploadFrames) : List (Poll Frame) :=
  (ofFrame f.head).map .item ++
    match f.file with
    | some arrivals => fileAnswers f.tail arrivals
    | none => (ofFrame f.tail).map .item

variable {f : UploadFrames} {tail : Option Bytes} {rest : List Arrival}

theorem fileAnswers_pending :
    fileAnswers tail (.pending :: rest) = .pending :: fileAnswers tail rest :=
  rfl

theorem fileAnswers_empty :
    fileAnswers tail (.chunk [] :: rest) = fileAnswers tail rest :=
  rfl

theorem fileAnswers_chunk {b : UInt8} {bs : Bytes} :
    fileAnswers tail (.chunk (b :: bs) :: rest) = .item (.ok (b :: bs)) :: fileAnswers tail rest :=
  rfl

theorem fileAnswers_fault {text : String} : fileAnswers tail (.fault text :: rest) =
    [.item (.error (.encode ("reading upload failed: " ++ text)))] :=
  rfl

theorem pollTail_answers (headless : f.head = none) :
    f.pollTail.1 = ((ofFrame f.tail).map .item).head?.getD .ended ∧
      f.pollTail.2.answers = ((ofFrame f.tail).map .item).tail := by
  unfold pollTail
  cases f.tail <;> simp [answers, ofFrame, headless]

theorem pollFile_answers (headless : f.head = none) (arrivals : List Arrival) :
    (f.pollFile arrivals).1 = (fileAnswers f.tail arrivals).head?.getD .ended ∧
      (f.pollFile arrivals).2.answers = (fileAnswers f.tail arrivals).tail := by
  induction arrivals with
  | nil => exact pollTail_answers headless
  | cons a rest ih =>
    cases a with
    | pending =>
      rw [fileAnswers_pending]
      simp [pollFile, answers, ofFrame, headless]
    | fault text =>
      rw [fileAnswers_fault]
      simp [pollFile, answers, ofFrame, headless]
    | chunk bytes =>
      cases bytes with
      | nil =>
        rw [fileAnswers_empty]
        exact ih
      | cons b bs =>
        rw [fileAnswers_chunk]
        simp [pollFile, answers, ofFrame, headless]

theorem poll_answers (f : UploadFrames) :
    f.poll.1 = f.answers.head?.getD .ended ∧ f.poll.2.answers = f.answers.tail := by
  unfold poll
  cases head : f.head with
  | some bytes => simp [answers, ofFrame, head]
  | none =>
    cases file : f.file with
    | none => simpa [answers, ofFrame, head, file] using pollTail_answers head
    | some arrivals => simpa [answers, ofFrame, head, file] using pollFile_answers head arrivals

theorem ended_not_mem_answers (f : UploadFrames) : .ended ∉ f.answers := by
  have file (arrivals : List Arrival) : .ended ∉ fileAnswers f.tail arrivals := by
    simp only [fileAnswers, List.mem_append, List.mem_filterMap, List.mem_map, reduceCtorEq,
      and_false, exists_false, or_false, not_exists, not_and]
    rintro (_ | (_ | ⟨b, bs⟩) | _) - <;> simp [answer?]
  unfold answers
  cases f.file <;> simp [file]

def Closes (f : UploadFrames) : Prop :=
  f.file.isSome = true → f.tail.isSome = true

theorem closes_ofUpload (u : Upload) : (ofUpload u).Closes :=
  fun _ => rfl

theorem file_pollTail (f : UploadFrames) : f.pollTail.2.file = none := by
  unfold pollTail
  split <;> rfl

theorem closes_pollTail (f : UploadFrames) : f.pollTail.2.Closes := by
  rw [Closes, file_pollTail]
  exact fun held => absurd held Bool.false_ne_true

theorem closes_pollFile (closes : f.tail.isSome = true) (arrivals : List Arrival) :
    (f.pollFile arrivals).2.Closes := by
  induction arrivals with
  | nil => exact closes_pollTail f
  | cons a rest ih =>
    cases a with
    | pending => exact fun _ => closes
    | fault text => simp [pollFile, Closes]
    | chunk bytes =>
      cases bytes with
      | nil => exact ih
      | cons b bs => exact fun _ => closes

theorem closes_poll (closes : f.Closes) : f.poll.2.Closes := by
  unfold poll
  split
  next => exact closes
  next =>
    split
    next arrivals file => exact closes_pollFile (closes (by rw [file]; rfl)) arrivals
    next => exact closes_pollTail f

theorem isDone_iff (closes : f.Closes) : f.isDone = true ↔ f.answers = [] := by
  unfold isDone answers
  cases head : f.head with
  | some bytes => simp [ofFrame]
  | none =>
    cases file : f.file with
    | none => cases f.tail <;> simp [ofFrame]
    | some arrivals =>
      obtain ⟨tail, has⟩ := Option.isSome_iff_exists.mp (closes (by rw [file]; rfl))
      simp only [has, fileAnswers, ending, ofFrame]
      cases arrivals.findSome? fault? <;> simp

end UploadFrames

namespace RequestBody

def answers : RequestBody → List (Poll Frame)
  | .empty => []
  | .buffered data => (UploadFrames.ofFrame data).map .item
  | .upload f => f.answers

def after : Nat → RequestBody → RequestBody
  | 0, b => b
  | n + 1, b => after n b.poll.2

inductive Reachable : RequestBody → Prop where
  | empty : Reachable .empty
  | buffered (data : Option Bytes) : Reachable (.buffered data)
  | upload (u : Upload) : Reachable (.ofUpload u)
  | poll {b : RequestBody} : Reachable b → Reachable b.poll.2

variable {b : RequestBody}

theorem poll_answers (b : RequestBody) :
    b.poll.1 = b.answers.head?.getD .ended ∧ b.poll.2.answers = b.answers.tail := by
  match b with
  | .empty | .buffered none | .buffered (some _) => exact ⟨rfl, rfl⟩
  | .upload f => exact f.poll_answers

theorem ended_not_mem_answers (b : RequestBody) : .ended ∉ b.answers := by
  match b with
  | .empty | .buffered none | .buffered (some _) => simp [answers]
  | .upload f => exact f.ended_not_mem_answers

theorem after_succ (n : Nat) (b : RequestBody) : b.after (n + 1) = (b.after n).poll.2 := by
  induction n generalizing b with
  | zero => rfl
  | succ n ih => exact ih b.poll.2

theorem answers_after (n : Nat) (b : RequestBody) : (b.after n).answers = b.answers.drop n := by
  induction n generalizing b with
  | zero => rfl
  | succ n ih => rw [after, ih, (poll_answers b).2, List.drop_tail]

theorem poll_after (n : Nat) (b : RequestBody) :
    (b.after n).poll.1 = b.answers[n]?.getD .ended := by
  rw [(poll_answers _).1, answers_after, List.head?_drop]

theorem frames_eq (b : RequestBody) : b.frames = b.answers.filterMap Poll.item? := by
  generalize left : b.answers = answers
  induction answers generalizing b with
  | nil =>
    have ended : b.poll.1 = .ended := by rw [(poll_answers b).1, left]; rfl
    rw [frames]
    split
    next => rfl
    next given => rw [ended] at given; cases given
    next given => rw [ended] at given; cases given
  | cons a rest ih =>
    have given : b.poll.1 = a := by rw [(poll_answers b).1, left]; rfl
    have next := ih b.poll.2 (by rw [(poll_answers b).2, left]; rfl)
    rw [frames]
    split
    next ended =>
      rw [given] at ended
      exact absurd (ended ▸ left ▸ List.mem_cons_self) (ended_not_mem_answers b)
    next waits =>
      rw [given] at waits
      subst waits
      exact next
    next frame gives =>
      rw [given] at gives
      subst gives
      rw [next]
      rfl

theorem bytes?_empty : RequestBody.empty.bytes? = .ok [] := by
  rw [bytes?, frames_eq]
  rfl

def Closes : RequestBody → Prop
  | .empty | .buffered _ => True
  | .upload f => f.Closes

theorem Reachable.closes (reached : Reachable b) : b.Closes := by
  induction reached with
  | empty | buffered => trivial
  | upload u => exact UploadFrames.closes_ofUpload u
  | @poll b _ ih =>
    match b with
    | .empty | .buffered none | .buffered (some _) => trivial
    | .upload f => exact UploadFrames.closes_poll ih

theorem isEnd_iff (closes : b.Closes) : b.isEnd = true ↔ b.answers = [] := by
  match b with
  | .empty | .buffered none | .buffered (some _) => simp [isEnd, answers, UploadFrames.ofFrame]
  | .upload f => exact UploadFrames.isDone_iff closes

theorem Reachable.isEnd_iff_ended (reached : Reachable b) :
    b.isEnd = true ↔ ∀ n, (b.after n).poll.1 = .ended := by
  rw [isEnd_iff reached.closes]
  simp only [poll_after]
  constructor
  · intro none n
    rw [none]
    rfl
  · intro ended
    cases left : b.answers with
    | nil => rfl
    | cons a rest =>
      have first : a = .ended := by simpa [left] using ended 0
      exact absurd (first ▸ left ▸ List.mem_cons_self) (ended_not_mem_answers b)

end RequestBody

end SupervisorApi
