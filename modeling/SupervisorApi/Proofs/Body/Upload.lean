import Mathlib.Data.List.TakeWhile
import SupervisorApi.Proofs.Body.Frames

set_option autoImplicit false

namespace SupervisorApi

open Arrival

namespace UploadFrames

def isEmptyChunk (a : Arrival) : Bool :=
  a = .chunk []

def askedFile (arrivals : List Arrival) : List (Option Arrival) :=
  (arrivals.takeWhile isEmptyChunk).map some ++ [(arrivals.dropWhile isEmptyChunk).head?]

def asked (f : UploadFrames) : List (Option Arrival) :=
  match f.head, f.file with
  | none, some arrivals => askedFile arrivals
  | _, _ => []

/-- Where a stream stands that has given these answers: it is still held, and what it gave is behind
it, or it has ended or failed, and it is gone. -/
inductive Stands (source : List Arrival) : Option (List Arrival) → List (Option Arrival) → Prop where
  | held {given rest : List Arrival} (whole : source = given ++ rest)
      (good : ∀ a ∈ given, a.isFault = false) : Stands source (some rest) (given.map some)
  | gone : Stands source none ((beforeFault source).map some ++ [source.find? isFault])

variable {f : UploadFrames} {source given rest : List Arrival} {a : Arrival}

theorem good_concat (good : ∀ a ∈ given, a.isFault = false) (fine : a.isFault = false) :
    ∀ b ∈ given ++ [a], b.isFault = false :=
  List.forall_mem_append.mpr ⟨good, by simpa using fine⟩

theorem Stands.further (whole : source = given ++ a :: rest)
    (good : ∀ a ∈ given, a.isFault = false) (fine : a.isFault = false) :
    Stands source (some rest) (given.map some ++ [some a]) := by
  simpa using Stands.held (by simpa using whole) (good_concat good fine)

theorem beforeFault_append (good : ∀ a ∈ given, a.isFault = false) (rest : List Arrival) :
    beforeFault (given ++ rest) = given ++ beforeFault rest :=
  List.takeWhile_append_of_pos (by simpa using good)

theorem find?_append_of_good (good : ∀ a ∈ given, a.isFault = false) (rest : List Arrival) :
    (given ++ rest).find? isFault = rest.find? isFault := by
  have none : given.find? isFault = none := by simpa using good
  rw [List.find?_append, none, Option.none_or]

theorem Stands.behind (whole : source = given ++ rest) (good : ∀ a ∈ given, a.isFault = false) :
    Stands source none (given.map some ++ ((beforeFault rest).map some ++ [rest.find? isFault])) := by
  have stands := @Stands.gone source
  rwa [whole, beforeFault_append good, find?_append_of_good good, List.map_append,
    List.append_assoc, ← whole] at stands

theorem Stands.ended (whole : source = given ++ []) (good : ∀ a ∈ given, a.isFault = false) :
    Stands source none (given.map some ++ [none]) :=
  Stands.behind whole good

theorem Stands.failed (whole : source = given ++ a :: rest)
    (good : ∀ a ∈ given, a.isFault = false) (fault : a.isFault = true) :
    Stands source none (given.map some ++ [some a]) := by
  simpa [beforeFault, fault] using Stands.behind whole good

theorem stands_pollFile (whole : source = given ++ rest)
    (good : ∀ a ∈ given, a.isFault = false) :
    Stands source (f.pollFile rest).2.file (given.map some ++ askedFile rest) := by
  induction rest generalizing given with
  | nil =>
    rw [pollFile, file_pollTail]
    exact Stands.ended whole good
  | cons a rest ih =>
    cases a with
    | pending => exact Stands.further whole good rfl
    | fault text => exact Stands.failed whole good rfl
    | chunk bytes =>
      cases bytes with
      | nil =>
        have next := @ih (given ++ [.chunk []]) (by simpa using whole) (good_concat good rfl)
        simpa [pollFile, askedFile, isEmptyChunk] using next
      | cons b bs => exact Stands.further whole good rfl

theorem stands_poll {answers : List (Option Arrival)} (stands : Stands source f.file answers) :
    Stands source f.poll.2.file (answers ++ f.asked) := by
  unfold poll asked
  cases head : f.head with
  | some bytes => simpa using stands
  | none =>
    cases file : f.file with
    | none =>
      rw [file] at stands
      simpa [file_pollTail] using stands
    | some arrivals =>
      rw [file] at stands
      cases stands with
      | held whole good => exact stands_pollFile whole good

end UploadFrames

namespace RequestBody

def file? : RequestBody → Option (List Arrival)
  | .empty | .buffered _ => none
  | .upload f => f.file

def asked : RequestBody → List (Option Arrival)
  | .empty | .buffered _ => []
  | .upload f => f.asked

def askedIn (n : Nat) (b : RequestBody) : List (Option Arrival) :=
  (List.range n).flatMap fun k => (b.after k).asked

theorem after_ofUpload (n : Nat) (u : Upload) : ∃ f, (ofUpload u).after n = .upload f := by
  induction n with
  | zero => exact ⟨_, rfl⟩
  | succ n ih =>
    obtain ⟨f, same⟩ := ih
    exact ⟨f.poll.2, by rw [after_succ, same]; rfl⟩

theorem stands_after (n : Nat) (u : Upload) :
    UploadFrames.Stands u.source ((ofUpload u).after n).file? ((ofUpload u).askedIn n) := by
  induction n with
  | zero => exact @UploadFrames.Stands.held _ [] _ rfl (by simp)
  | succ n ih =>
    obtain ⟨f, same⟩ := after_ofUpload n u
    rw [same] at ih
    have next := UploadFrames.stands_poll ih
    rw [after_succ, askedIn, List.range_succ, List.flatMap_append, List.flatMap_singleton, same]
    exact next

end RequestBody

namespace Upload

variable {u : Upload}

def chunks (u : Upload) : List Bytes :=
  ((beforeFault u.source).filterMap chunk?).filter (· ≠ [])

def fileBytes (u : Upload) : Bytes :=
  (u.source.filterMap chunk?).flatten

def closing (u : Upload) : Frame :=
  match u.source.findSome? fault? with
  | some text => .error (.encode ("reading upload failed: " ++ text))
  | none => .ok (Utf8.encode u.tail)

theorem answers_eq (u : Upload) : (RequestBody.ofUpload u).answers =
    .item (.ok (Utf8.encode u.head)) ::
      ((beforeFault u.source).filterMap answer? ++ [.item u.closing]) := by
  simp only [RequestBody.ofUpload, RequestBody.answers, UploadFrames.answers, UploadFrames.ofUpload,
    UploadFrames.fileAnswers, UploadFrames.ending, UploadFrames.ofFrame, closing]
  cases u.source.findSome? fault? <;> rfl

theorem items_answers (arrivals : List Arrival) :
    (arrivals.filterMap answer?).filterMap Poll.item? =
      ((arrivals.filterMap chunk?).filter (· ≠ [])).map .ok := by
  induction arrivals with
  | nil => rfl
  | cons a rest ih =>
    rcases a with _ | (_ | ⟨b, bs⟩) | _ <;>
      simp only [List.filterMap_cons, answer?, chunk?, Poll.item?, ih] <;> simp

theorem frames_eq (u : Upload) : (RequestBody.ofUpload u).frames =
    .ok (Utf8.encode u.head) :: (u.chunks.map .ok ++ [u.closing]) := by
  simp only [RequestBody.frames_eq, answers_eq, List.filterMap_cons, List.filterMap_append,
    items_answers, Poll.item?, List.filterMap_nil]
  rfl

theorem flatten_chunks (good : u.source.findSome? fault? = none) :
    u.chunks.flatten = u.fileBytes := by
  have whole : beforeFault u.source = u.source := by
    rw [List.findSome?_eq_none_iff] at good
    exact List.takeWhile_eq_self_iff.mpr fun a member => by simp [isFault, good a member]
  rw [chunks, fileBytes, whole, List.flatten_filter_ne_nil]

theorem mapM_ok (frames : List Bytes) :
    (frames.map (.ok : Bytes → Frame)).mapM id = .ok frames := by
  induction frames with
  | nil => rfl
  | cons frame rest ih =>
    rw [List.map_cons, List.mapM_cons, ih]
    rfl

theorem bytes_of_good (good : u.source.findSome? fault? = none) :
    (RequestBody.ofUpload u).bytes? =
      .ok (Utf8.encode u.head ++ u.fileBytes ++ Utf8.encode u.tail) := by
  have last : u.closing = .ok (Utf8.encode u.tail) := by rw [closing, good]
  have whole : (RequestBody.ofUpload u).frames =
      (Utf8.encode u.head :: (u.chunks ++ [Utf8.encode u.tail])).map .ok := by
    rw [frames_eq, last]
    simp
  rw [RequestBody.bytes?, whole, mapM_ok, Except.map, List.flatten_cons, List.flatten_append,
    flatten_chunks good, List.flatten_singleton, List.append_assoc]

/-- What becomes of an upload that is polled again and again. Each poll gives what comes next of the
head, the file and its last frame, and then nothing for ever; taken together that is the head, the
chunks that are not empty, and the closing delimiter or else the fault; the stream is asked for what
it has up to its end or its fault, and for no more; and of any body on its way, the end is said
exactly when nothing comes any more. -/
theorem polled_to_the_end (u : Upload) :
    (∀ n, ((RequestBody.ofUpload u).after n).poll.1 =
      (.item (.ok (Utf8.encode u.head)) ::
        ((beforeFault u.source).filterMap answer? ++ [.item u.closing]))[n]?.getD .ended) ∧
    (RequestBody.ofUpload u).frames =
      .ok (Utf8.encode u.head) :: (u.chunks.map .ok ++ [u.closing]) ∧
    (u.source.findSome? fault? = none → (RequestBody.ofUpload u).bytes? =
      .ok (Utf8.encode u.head ++ u.fileBytes ++ Utf8.encode u.tail)) ∧
    (∀ n, UploadFrames.Stands u.source ((RequestBody.ofUpload u).after n).file?
      ((RequestBody.ofUpload u).askedIn n)) ∧
    (∀ b : RequestBody, b.Reachable → (b.isEnd = true ↔ ∀ n, (b.after n).poll.1 = .ended)) := by
  refine ⟨fun n => ?_, u.frames_eq, bytes_of_good, fun n => RequestBody.stands_after n u,
    fun b reached => reached.isEnd_iff_ended⟩
  rw [RequestBody.poll_after, answers_eq]

end Upload

end SupervisorApi
