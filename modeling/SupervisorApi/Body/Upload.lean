import SupervisorApi.Body.Poll
import SupervisorApi.Error.Basic
import SupervisorApi.Text.Utf8
import SupervisorApi.Uuid

set_option autoImplicit false

namespace SupervisorApi

structure Boundary where
  id : Uuid

namespace Boundary

def text (b : Boundary) : String :=
  "hasupervisor-" ++ b.id.render

end Boundary

inductive Arrival where
  | pending
  | chunk (bytes : Bytes)
  | fault (text : String)
  deriving DecidableEq, Repr

structure Upload where
  boundary : Boundary
  field : String
  filename : String
  contentType : String
  source : List Arrival
  length : Option Nat

namespace Upload

def ofStream (boundary : Boundary) (source : List Arrival) : Upload where
  boundary := boundary
  field := "file"
  filename := "backup.tar"
  contentType := "application/x-tar"
  source := source
  length := none

def ofBytes (boundary : Boundary) (data : Bytes) : Upload :=
  { ofStream boundary [.chunk data] with length := some data.length }

def mediaType (u : Upload) : String :=
  "multipart/form-data; boundary=" ++ u.boundary.text

def escapeChar (c : Char) : List Char :=
  if c = '\\' then ['\\', '\\'] else if c = '"' then ['\\', '"'] else [c]

def escape (s : String) : String :=
  String.ofList (s.toList.flatMap escapeChar)

def lineBreak : String := "\r\n"

def delimiter (u : Upload) : String :=
  "--" ++ u.boundary.text

def opening : String := "Content-Disposition: form-data; name=\""

def between : String := "\"; filename=\""

def disposition (u : Upload) : String :=
  opening ++ escape u.field ++ between ++ escape u.filename ++ "\""

def typeLine (u : Upload) : String :=
  "Content-Type: " ++ u.contentType

def head (u : Upload) : String :=
  u.delimiter ++ lineBreak ++ u.disposition ++ lineBreak ++ u.typeLine ++ lineBreak ++ lineBreak

def tail (u : Upload) : String :=
  lineBreak ++ u.delimiter ++ "--" ++ lineBreak

def lengthText : Option Nat → String
  | some n => "Some(" ++ toString n ++ ")"
  | none => "None"

def describe (u : Upload) : String :=
  "MultipartUpload \x7b boundary: " ++ Quoted.quote u.boundary.text
    ++ ", field: " ++ Quoted.quote u.field ++ ", filename: " ++ Quoted.quote u.filename
    ++ ", file_len: " ++ lengthText u.length ++ ", .. \x7d"

end Upload

structure UploadFrames where
  head : Option Bytes
  file : Option (List Arrival)
  remaining : Option Nat
  tail : Option Bytes

namespace UploadFrames

def ofUpload (u : Upload) : UploadFrames where
  head := some (Utf8.encode u.head)
  file := some u.source
  remaining := u.length
  tail := some (Utf8.encode u.tail)

def pollTail (f : UploadFrames) : Poll (Except ApiError Bytes) × UploadFrames :=
  match f.tail with
  | some t => (.item (.ok t), { f with file := none, tail := none })
  | none => (.ended, { f with file := none })

-- A fault ends the body without its closing delimiter.
def pollFile (f : UploadFrames) : List Arrival → Poll (Except ApiError Bytes) × UploadFrames
  | [] => f.pollTail
  | .pending :: rest => (.pending, { f with file := some rest })
  | .chunk [] :: rest => f.pollFile rest
  | .chunk bytes :: rest =>
    (.item (.ok bytes),
      { f with file := some rest, remaining := f.remaining.map (· - bytes.length) })
  | .fault text :: _ =>
    (.item (.error (.encode ("reading upload failed: " ++ text))),
      { f with file := none, tail := none })

def poll (f : UploadFrames) : Poll (Except ApiError Bytes) × UploadFrames :=
  match f.head with
  | some h => (.item (.ok h), { f with head := none })
  | none =>
    match f.file with
    | some arrivals => f.pollFile arrivals
    | none => f.pollTail

def isDone (f : UploadFrames) : Bool :=
  f.head.isNone && f.file.isNone && f.tail.isNone

def frameLength (frame : Option Bytes) : Nat :=
  (frame.map List.length).getD 0

def sizeHint (f : UploadFrames) : SizeHint :=
  let framing := frameLength f.head + frameLength f.tail
  match f.file, f.remaining with
  | none, _ => .exact framing
  | some _, some n => .exact (framing + n)
  | some _, none => .atLeast framing

def describe (f : UploadFrames) : String :=
  "UploadFrames \x7b file_remaining: " ++ Upload.lengthText f.remaining
    ++ ", done: " ++ toString f.isDone ++ ", .. \x7d"

def frameRank : Option Bytes → Nat
  | some _ => 1
  | none => 0

def fileRank : Option (List Arrival) → Nat
  | some arrivals => arrivals.length + 1
  | none => 0

def rank (f : UploadFrames) : Nat :=
  frameRank f.head + fileRank f.file + frameRank f.tail

theorem rank_pollTail {f : UploadFrames} (h : f.pollTail.1 ≠ .ended) :
    f.pollTail.2.rank < f.rank := by
  unfold pollTail at *
  split at h
  · next t ht => simp only [rank, fileRank, frameRank, ht]; omega
  · exact absurd rfl h

theorem rank_pollFile {f : UploadFrames} {arrivals : List Arrival}
    (h : (f.pollFile arrivals).1 ≠ .ended) :
    (f.pollFile arrivals).2.rank < { f with file := some arrivals }.rank := by
  induction arrivals with
  | nil =>
    simp only [pollFile] at *
    unfold pollTail at *
    split at h
    · next t ht => simp only [rank, fileRank, frameRank, ht]; omega
    · exact absurd rfl h
  | cons a rest ih =>
    cases a with
    | pending => simp only [pollFile, rank, fileRank, List.length_cons]; omega
    | fault t => simp only [pollFile, rank, fileRank, frameRank, List.length_cons]; omega
    | chunk bytes =>
      cases bytes with
      | nil =>
        simp only [pollFile] at *
        refine Nat.lt_trans (ih h) ?_
        simp only [rank, fileRank, List.length_cons]; omega
      | cons b bs => simp only [pollFile, rank, fileRank, List.length_cons]; omega

theorem rank_poll {f : UploadFrames} (h : f.poll.1 ≠ .ended) : f.poll.2.rank < f.rank := by
  unfold poll at *
  split at h
  · next hd hh => simp only [rank, frameRank, hh]; omega
  · next hh =>
    split at h
    · next arrivals hfile =>
      have := rank_pollFile h
      have e : { f with file := some arrivals } = f := by cases f; simp_all
      rwa [e] at this
    · exact rank_pollTail h

end UploadFrames

end SupervisorApi
