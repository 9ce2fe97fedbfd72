import SupervisorApi.Proofs.Body.Upload

set_option autoImplicit false

namespace SupervisorApi

open Arrival

def AddUp (frames : List Frame) (size : Nat) : Prop :=
  ∃ chunks : List Bytes, frames = chunks.map .ok ∧ chunks.flatten.length = size

namespace Arrival

def total (arrivals : List Arrival) : Nat :=
  (arrivals.filterMap chunk?).flatten.length

def isLast : Option Arrival → Bool
  | some a => a.isFault
  | none => true

@[simp] theorem total_chunk (bytes : Bytes) (rest : List Arrival) :
    total (.chunk bytes :: rest) = bytes.length + total rest := by
  simp [total, chunk?]

end Arrival

namespace UploadFrames

variable {f : UploadFrames} {arrivals : List Arrival}

/-- What is known to be left of a file is what its stream still holds, and the stream does not fail. -/
def Counted (f : UploadFrames) : Prop :=
  ∀ arrivals, f.file = some arrivals → ∀ size, f.remaining = some size →
    (∀ a ∈ arrivals, a.isFault = false) ∧ total arrivals = size

theorem counted_pollTail (f : UploadFrames) : f.pollTail.2.Counted := by
  intro arrivals held
  rw [file_pollTail] at held
  cases held

theorem counted_pollFile
    (counted : ∀ size, f.remaining = some size →
      (∀ a ∈ arrivals, a.isFault = false) ∧ total arrivals = size) :
    (f.pollFile arrivals).2.Counted := by
  induction arrivals with
  | nil => exact counted_pollTail f
  | cons a rest ih =>
    have later (size : Nat) (known : f.remaining = some size) : ∀ b ∈ rest, b.isFault = false :=
      fun b member => (counted size known).1 b (List.mem_cons_of_mem a member)
    cases a with
    | pending =>
      rintro _ ⟨⟩ size known
      exact ⟨later size known, (counted size known).2⟩
    | fault text =>
      intro _ held
      cases held
    | chunk bytes =>
      cases bytes with
      | nil =>
        refine ih fun size known => ⟨later size known, ?_⟩
        simpa using (counted size known).2
      | cons b bs =>
        rintro _ ⟨⟩ left known
        obtain ⟨size, before, rfl⟩ := Option.map_eq_some_iff.mp known
        have whole := (counted size before).2
        rw [total_chunk] at whole
        exact ⟨later size before, by omega⟩

theorem counted_poll (counted : f.Counted) : f.poll.2.Counted := by
  unfold poll
  split
  next => exact counted
  next =>
    split
    next arrivals file => exact counted_pollFile fun size => counted arrivals file size
    next => exact counted_pollTail f

theorem isSome_remaining_pollFile (f : UploadFrames) (arrivals : List Arrival) :
    (f.pollFile arrivals).2.remaining.isSome = f.remaining.isSome := by
  induction arrivals with
  | nil => unfold pollFile pollTail; split <;> rfl
  | cons a rest ih =>
    rcases a with _ | (_ | ⟨b, bs⟩) | _
    · rfl
    · exact ih
    · exact Option.isSome_map
    · rfl

theorem isSome_remaining_poll (f : UploadFrames) :
    f.poll.2.remaining.isSome = f.remaining.isSome := by
  unfold poll
  split
  next => rfl
  next =>
    split
    next => exact isSome_remaining_pollFile f _
    next => exact isSome_remaining_pollFile f []

theorem isDone_of_error_pollFile {e : ApiError} (headless : f.head = none)
    (failed : (f.pollFile arrivals).1 = .item (.error e)) :
    (f.pollFile arrivals).2.isDone = true := by
  induction arrivals with
  | nil =>
    unfold pollFile pollTail at failed
    split at failed <;> cases failed
  | cons a rest ih =>
    rcases a with _ | (_ | ⟨b, bs⟩) | _
    · cases failed
    · exact ih failed
    · cases failed
    · simp [pollFile, isDone, headless]

theorem isDone_of_error {e : ApiError} (failed : f.poll.1 = .item (.error e)) :
    f.poll.2.isDone = true := by
  unfold poll at failed ⊢
  cases head : f.head with
  | some bytes =>
    simp only [head] at failed
    cases failed
  | none =>
    simp only [head] at failed ⊢
    cases file : f.file with
    | none =>
      simp only [file] at failed
      exact @isDone_of_error_pollFile f [] _ head failed
    | some arrivals =>
      simp only [file] at failed
      exact isDone_of_error_pollFile head failed

theorem sizeHint_of_isDone (done : f.isDone = true) : f.sizeHint = .exact 0 := by
  simp only [isDone, Bool.and_eq_true, Option.isNone_iff_eq_none] at done
  obtain ⟨⟨head, file⟩, tail⟩ := done
  simp [sizeHint, frameLength, head, file, tail]

theorem sizeHint_eq_exact_iff :
    (∃ size, f.sizeHint = .exact size) ↔ f.file = none ∨ f.remaining.isSome = true := by
  unfold sizeHint
  cases f.file <;> cases f.remaining <;> simp

theorem length_toList (frame : Option Bytes) : frame.toList.flatten.length = frameLength frame := by
  cases frame <;> simp [frameLength]

theorem items_ofFrame (frames : List Frame) : (frames.map Poll.item).filterMap Poll.item? = frames := by
  rw [List.filterMap_map]
  exact List.filterMap_some

theorem addUp_of_closed (closed : f.file = none) :
    AddUp (RequestBody.upload f).frames (frameLength f.head + frameLength f.tail) := by
  refine ⟨f.head.toList ++ f.tail.toList, ?_, ?_⟩
  · rw [RequestBody.frames_eq, RequestBody.answers, answers, closed, List.filterMap_append,
      items_ofFrame, items_ofFrame, ofFrame, ofFrame, List.map_append]
  · rw [List.flatten_append, List.length_append, length_toList, length_toList]

theorem addUp_of_held (held : f.file = some arrivals) (good : ∀ a ∈ arrivals, a.isFault = false) :
    AddUp (RequestBody.upload f).frames
      (frameLength f.head + frameLength f.tail + total arrivals) := by
  have whole : beforeFault arrivals = arrivals :=
    List.takeWhile_eq_self_iff.mpr fun a member => by simp [good a member]
  have faultless : arrivals.findSome? fault? = none :=
    List.findSome?_eq_none_iff.mpr fun a member => by simpa [isFault] using good a member
  refine ⟨f.head.toList ++ ((arrivals.filterMap chunk?).filter (· ≠ []) ++ f.tail.toList), ?_, ?_⟩
  · rw [RequestBody.frames_eq, RequestBody.answers, answers, held, List.filterMap_append,
      items_ofFrame]
    simp only [fileAnswers, whole, ending, faultless]
    rw [List.filterMap_append, items_ofFrame, Upload.items_answers, ofFrame, ofFrame,
      List.map_append, List.map_append]
  · simp only [List.flatten_append, List.length_append, length_toList,
      List.flatten_filter_ne_nil]
    rw [total]
    omega

theorem addUp_of_exact {size : Nat} (counted : f.Counted) (hint : f.sizeHint = .exact size) :
    AddUp (RequestBody.upload f).frames size := by
  unfold sizeHint at hint
  split at hint
  next closed =>
    cases hint
    exact addUp_of_closed closed
  next arrivals left held known =>
    cases hint
    obtain ⟨good, whole⟩ := counted arrivals held left known
    exact whole ▸ addUp_of_held held good
  next => cases hint

theorem addUp_of_atLeast {size : Nat} (hint : f.sizeHint = .atLeast size)
    (good : ∀ arrivals ∈ f.file, ∀ a ∈ arrivals, a.isFault = false) :
    ∃ whole, size ≤ whole ∧ AddUp (RequestBody.upload f).frames whole := by
  unfold sizeHint at hint
  split at hint
  next => cases hint
  next => cases hint
  next arrivals held _ =>
    cases hint
    exact ⟨_, Nat.le_add_right _ _, addUp_of_held held (good arrivals held)⟩

theorem Stands.file_eq_none_iff {source : List Arrival} {file : Option (List Arrival)}
    {given : List (Option Arrival)} (stands : Stands source file given) :
    file = none ↔ ∃ answer ∈ given, isLast answer = true := by
  cases stands with
  | held whole good =>
    simp only [reduceCtorEq, List.mem_map, false_iff, not_exists, not_and]
    rintro _ ⟨a, member, rfl⟩ last
    exact absurd (good a member) (by simpa [isLast] using last)
  | gone =>
    simp only [true_iff]
    refine ⟨source.find? isFault, by simp, ?_⟩
    cases found : source.find? isFault with
    | none => rfl
    | some a =>
      have last : a.isFault = true := List.find?_some found
      exact last

theorem Stands.good_of_held {source rest : List Arrival} {given : List (Option Arrival)}
    (stands : Stands source (some rest) given) (good : ∀ a ∈ source, a.isFault = false) :
    ∀ a ∈ rest, a.isFault = false := by
  cases stands with
  | held whole _ => exact fun a member => good a (whole ▸ List.mem_append_right _ member)

end UploadFrames

namespace Upload

inductive Made : Upload → Option (List Arrival) → Prop where
  | bytes (boundary : Boundary) (data : Bytes) : Made (.ofBytes boundary data) none
  | stream (boundary : Boundary) (source : List Arrival) :
    Made (.ofStream boundary source) (some source)
  | field {u : Upload} {stream : Option (List Arrival)} (name : String) (made : Made u stream) :
    Made { u with field := name } stream
  | filename {u : Upload} {stream : Option (List Arrival)} (name : String) (made : Made u stream) :
    Made { u with filename := name } stream

variable {u : Upload} {stream : Option (List Arrival)}

theorem Made.counts (made : u.Made stream) {size : Nat} (known : u.length = some size) :
    (∀ a ∈ u.source, a.isFault = false) ∧ total u.source = size := by
  induction made with
  | bytes boundary data =>
    cases known
    refine ⟨fun a member => ?_, ?_⟩
    · rw [List.mem_singleton.mp member]
      rfl
    · change total [.chunk data] = data.length
      rw [total_chunk]
      rfl
  | stream => cases known
  | field _ _ ih | filename _ _ ih => exact ih known

theorem Made.counted (made : u.Made stream) : (UploadFrames.ofUpload u).Counted := by
  rintro _ ⟨⟩ size known
  exact made.counts known

theorem Made.length_isSome (made : u.Made stream) : u.length.isSome = stream.isNone := by
  induction made with
  | bytes | stream => rfl
  | field _ _ ih | filename _ _ ih => exact ih

theorem Made.source_eq {source : List Arrival} (made : u.Made stream)
    (streamed : stream = some source) : u.source = source := by
  induction made with
  | bytes => cases streamed
  | stream => exact Option.some.inj streamed
  | field _ _ ih | filename _ _ ih => exact ih streamed

end Upload

namespace RequestBody

inductive Made : RequestBody → Option (List Arrival) → Prop where
  | empty : Made .empty none
  | buffered (data : Option Bytes) : Made (.buffered data) none
  | upload {u : Upload} {stream : Option (List Arrival)} (made : u.Made stream) :
    Made (.ofUpload u) stream

variable {b start : RequestBody} {stream : Option (List Arrival)}

theorem Made.reachable (made : start.Made stream) (n : Nat) : (start.after n).Reachable := by
  induction n with
  | zero =>
    cases made with
    | empty => exact .empty
    | buffered data => exact .buffered data
    | upload => exact .upload _
  | succ n ih =>
    rw [after_succ]
    exact .poll ih

theorem Made.upload_after {u : Upload} (made : u.Made stream) (n : Nat) :
    ∃ f, (ofUpload u).after n = .upload f ∧ f.Counted ∧ f.remaining.isSome = stream.isNone := by
  induction n with
  | zero => exact ⟨_, rfl, made.counted, made.length_isSome⟩
  | succ n ih =>
    obtain ⟨f, same, counted, known⟩ := ih
    refine ⟨f.poll.2, by rw [after_succ, same]; rfl, UploadFrames.counted_poll counted, ?_⟩
    rw [UploadFrames.isSome_remaining_poll, known]

theorem addUp_buffered (data : Option Bytes) :
    AddUp (buffered data).frames (UploadFrames.frameLength data) := by
  refine ⟨data.toList, ?_, UploadFrames.length_toList data⟩
  rw [frames_eq, answers, UploadFrames.items_ofFrame, UploadFrames.ofFrame]

theorem after_empty (n : Nat) : RequestBody.empty.after n = .empty := by
  induction n with
  | zero => rfl
  | succ n ih => rw [after_succ, ih]; rfl

theorem after_buffered (n : Nat) (data : Option Bytes) :
    ∃ left, (buffered data).after n = .buffered left := by
  induction n with
  | zero => exact ⟨data, rfl⟩
  | succ n ih =>
    obtain ⟨left, same⟩ := ih
    cases left <;> exact ⟨none, by rw [after_succ, same]; rfl⟩

theorem sizeHint_of_isEnd (ended : b.isEnd = true) : b.sizeHint = .exact 0 := by
  match b with
  | .empty => rfl
  | .buffered data =>
    obtain rfl := Option.isNone_iff_eq_none.mp ended
    rfl
  | .upload f => exact UploadFrames.sizeHint_of_isDone ended

theorem isEnd_of_error {e : ApiError} (failed : b.poll.1 = .item (.error e)) :
    b.poll.2.isEnd = true := by
  match b with
  | .empty | .buffered none | .buffered (some _) => cases failed
  | .upload f => exact UploadFrames.isDone_of_error failed

theorem Made.isEnd_after_iff (made : start.Made stream) (n : Nat) :
    (start.after n).isEnd = true ↔ start.answers.length ≤ n := by
  rw [isEnd_iff (made.reachable n).closes, answers_after, List.drop_eq_nil_iff]

theorem length_answers_of_ended {n : Nat} (ended : (start.after n).poll.1 = .ended) :
    start.answers.length ≤ n := by
  by_contra before
  have inside : n < start.answers.length := by omega
  rw [poll_after, List.getElem?_eq_getElem inside, Option.getD_some] at ended
  exact ended_not_mem_answers start (ended ▸ List.getElem_mem inside)

theorem Made.isEnd_of_last (made : start.Made stream) {m n : Nat} (later : m < n)
    (last : (start.after m).poll.1 = .ended ∨ ∃ e, (start.after m).poll.1 = .item (.error e)) :
    (start.after n).isEnd = true := by
  rw [made.isEnd_after_iff]
  rcases last with ended | ⟨e, failed⟩
  · have behind := length_answers_of_ended ended
    omega
  · have behind := isEnd_of_error failed
    rw [← after_succ, made.isEnd_after_iff] at behind
    omega

theorem Made.addUp_of_exact (made : start.Made stream) (n : Nat) {size : Nat}
    (hint : (start.after n).sizeHint = .exact size) : AddUp (start.after n).frames size := by
  cases made with
  | empty =>
    rw [after_empty] at hint ⊢
    cases hint
    exact ⟨[], by rw [frames_eq]; rfl, rfl⟩
  | buffered data =>
    obtain ⟨left, same⟩ := after_buffered n data
    rw [same] at hint ⊢
    cases hint
    exact addUp_buffered left
  | upload made =>
    obtain ⟨f, same, counted, -⟩ := upload_after made n
    rw [same] at hint ⊢
    exact UploadFrames.addUp_of_exact counted hint

theorem Made.addUp_of_atLeast (made : start.Made stream) (n : Nat) {size : Nat}
    (hint : (start.after n).sizeHint = .atLeast size)
    (good : ∀ source ∈ stream, ∀ a ∈ source, a.isFault = false) :
    ∃ whole, size ≤ whole ∧ AddUp (start.after n).frames whole := by
  cases made with
  | empty =>
    rw [after_empty] at hint
    cases hint
  | buffered data =>
    obtain ⟨left, same⟩ := after_buffered n data
    rw [same] at hint
    cases hint
  | @upload u _ made =>
    obtain ⟨f, same, -, known⟩ := upload_after made n
    have stands := stands_after n u
    rw [same] at hint stands ⊢
    refine UploadFrames.addUp_of_atLeast hint fun rest held => ?_
    rw [file?, held] at stands
    cases stream with
    | some source => exact stands.good_of_held (made.source_eq rfl ▸ good source rfl)
    | none =>
      -- With its length known an upload says exactly what is left.
      obtain ⟨left, told⟩ := UploadFrames.sizeHint_eq_exact_iff.mpr (.inr known)
      rw [sizeHint, told] at hint
      cases hint

theorem Made.exact_iff (made : start.Made stream) (n : Nat) :
    (∃ size, (start.after n).sizeHint = .exact size) ↔
      stream = none ∨ ∃ answer ∈ start.askedIn n, isLast answer = true := by
  cases made with
  | empty =>
    rw [after_empty]
    exact ⟨fun _ => .inl rfl, fun _ => ⟨0, rfl⟩⟩
  | buffered data =>
    obtain ⟨left, same⟩ := after_buffered n data
    rw [same]
    exact ⟨fun _ => .inl rfl, fun _ => ⟨_, rfl⟩⟩
  | @upload u _ made =>
    obtain ⟨f, same, -, known⟩ := upload_after made n
    have stands := stands_after n u
    rw [same] at stands ⊢
    rw [← stands.file_eq_none_iff, sizeHint, UploadFrames.sizeHint_eq_exact_iff, known,
      Option.isNone_iff_eq_none, or_comm]
    rfl

/-- What a body says of its size holds at every moment: if it says how many bytes it has left, that
many come, and if it says how many at least, as many come unless the stream of the caller fails. It
says the number from the start, if it is not the upload of a stream, and else as soon as the stream
has ended or failed; at its end, and after an error, the number is nought. -/
theorem announced_size (made : start.Made stream) (n : Nat) :
    (∀ size, (start.after n).sizeHint = .exact size → AddUp (start.after n).frames size) ∧
    (∀ size, (start.after n).sizeHint = .atLeast size →
      (∀ source ∈ stream, ∀ a ∈ source, a.isFault = false) →
        ∃ whole, size ≤ whole ∧ AddUp (start.after n).frames whole) ∧
    ((∃ size, (start.after n).sizeHint = .exact size) ↔
      stream = none ∨ ∃ answer ∈ start.askedIn n, isLast answer = true) ∧
    ((start.after n).isEnd = true → (start.after n).sizeHint = .exact 0) ∧
    (∀ m < n, (start.after m).poll.1 = .ended ∨ (∃ e, (start.after m).poll.1 = .item (.error e)) →
      (start.after n).sizeHint = .exact 0) := by
  refine ⟨fun size => made.addUp_of_exact n, fun size => made.addUp_of_atLeast n,
    made.exact_iff n, sizeHint_of_isEnd, ?_⟩
  intro m later last
  exact sizeHint_of_isEnd (made.isEnd_of_last later last)

theorem announced_size_of_stream :
    let u := Upload.ofStream ⟨Uuid.zero⟩ [.chunk [0x61], .pending, .chunk [0x62]]
    ((ofUpload u).after 2).sizeHint = .atLeast 53 ∧
      ∃ whole, 53 ≤ whole ∧ AddUp ((ofUpload u).after 2).frames whole := by
  intro u
  have hint : ((ofUpload u).after 2).sizeHint = .atLeast 53 := by decide +kernel
  refine ⟨hint, (announced_size (.upload (.stream _ _)) 2).2.1 53 hint ?_⟩
  rintro _ ⟨⟩
  decide

end RequestBody

end SupervisorApi
