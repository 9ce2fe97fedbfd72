import SupervisorApi.Body.Upload

set_option autoImplicit false

namespace SupervisorApi

inductive RequestBody where
  | empty
  | buffered (data : Option Bytes)
  | upload (frames : UploadFrames)

namespace RequestBody

def ofBytes (data : Bytes) : RequestBody :=
  .buffered (some data)

def ofUpload (u : Upload) : RequestBody :=
  .upload (.ofUpload u)

def poll : RequestBody → Poll (Except ApiError Bytes) × RequestBody
  | .empty => (.ended, .empty)
  | .buffered (some data) => (.item (.ok data), .buffered none)
  | .buffered none => (.ended, .buffered none)
  | .upload f => (f.poll.1, .upload f.poll.2)

def isEnd : RequestBody → Bool
  | .empty => true
  | .buffered data => data.isNone
  | .upload f => f.isDone

def sizeHint : RequestBody → SizeHint
  | .empty => .exact 0
  | .buffered data => .exact (UploadFrames.frameLength data)
  | .upload f => f.sizeHint

def describe : RequestBody → String
  | .empty => "Empty"
  | .buffered data => "Buffered(" ++ Upload.lengthText (data.map List.length) ++ ")"
  | .upload f => "Upload(" ++ f.describe ++ ")"

def rank : RequestBody → Nat
  | .empty | .buffered none => 0
  | .buffered (some _) => 1
  | .upload f => f.rank

theorem rank_poll {b : RequestBody} (h : b.poll.1 ≠ .ended) : b.poll.2.rank < b.rank := by
  match b with
  | .empty => exact absurd rfl h
  | .buffered none => exact absurd rfl h
  | .buffered (some _) => exact Nat.one_pos
  | .upload f => exact UploadFrames.rank_poll h

def frames (b : RequestBody) : List (Except ApiError Bytes) :=
  match _h : b.poll.1 with
  | .ended => []
  | .pending => frames b.poll.2
  | .item a => a :: frames b.poll.2
termination_by b.rank
decreasing_by all_goals exact rank_poll (by simp [_h])

def bytes? (b : RequestBody) : Except ApiError Bytes :=
  (b.frames.mapM id).map List.flatten

end RequestBody

end SupervisorApi
