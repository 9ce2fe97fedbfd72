import SupervisorApi.Body.Upload
import SupervisorApi.Endpoint.Basic
import SupervisorApi.Proofs.Error.Template
import SupervisorApi.Proofs.Http.Lines

set_option autoImplicit false

namespace SupervisorApi

theorem Upload.escapeChar_cases (c : Char) :
    (escapeChar c = [c] ∧ c ≠ '\\' ∧ c ≠ '"') ∨
      (escapeChar c = ['\\', c] ∧ (c = '\\' ∨ c = '"')) := by
  unfold escapeChar
  by_cases backslash : c = '\\'
  · simp [backslash]
  · by_cases quote : c = '"' <;> simp [backslash, quote]

structure PartHead where
  delimiter : String
  field : String
  filename : String
  contentType : String
  deriving DecidableEq, Repr

namespace PartHead

-- A text up to its closing quote, and what follows. A backslash takes the next character as it is.
def quoted? : List Char → Option (List Char × List Char)
  | [] => none
  | '"' :: rest => some ([], rest)
  | ['\\'] => none
  | '\\' :: c :: rest => (quoted? rest).map fun (s, more) => (c :: s, more)
  | c :: rest => (quoted? rest).map fun (s, more) => (c :: s, more)

def after? (start : String) (text : List Char) : Option (List Char) :=
  Template.afterStart start.toList text

def names? (text : List Char) : Option (String × String) := do
  let (field, rest) ← quoted? (← after? "Content-Disposition: form-data; name=\"" text)
  let (filename, rest) ← quoted? (← after? "; filename=\"" rest)
  if rest = [] then some (String.ofList field, String.ofList filename) else none

def ofLines? : List Bytes → Option PartHead
  | [first, second, third] => do
    let delimiter ← Utf8.decode? first
    let (field, filename) ← names? (← Utf8.decode? second).toList
    let contentType ← after? "Content-Type: " (← Utf8.decode? third).toList
    some ⟨delimiter, field, filename, String.ofList contentType⟩
  | _ => none

-- Lines up to an empty one, and nothing behind it.
def read? (bytes : Bytes) : Option PartHead :=
  match Wire.lines? bytes with
  | some (lines, []) => ofLines? lines
  | _ => none

theorem after?_append (start : String) (rest : List Char) :
    after? start (start.toList ++ rest) = some rest :=
  Template.afterStart_eq_some_iff.mpr rfl

theorem quoted?_escape (s rest : List Char) :
    quoted? (s.flatMap Upload.escapeChar ++ '"' :: rest) = some (s, rest) := by
  induction s with
  | nil => rfl
  | cons c more ih =>
    rcases Upload.escapeChar_cases c with ⟨same, backslash, quote⟩ | ⟨guarded, -⟩
    · simp [same, backslash, quoted?, ih]
    · simp [guarded, quoted?, ih]

-- A head that can be read has the breaks of its three lines and of the empty one, and no others.
theorem breaks_of_read? {bytes : Bytes} {found : PartHead} (read : read? bytes = some found) :
    breaks 0x0D 0x0A bytes = 4 := by
  unfold read? at read
  split at read
  next lines shown =>
    have count := Wire.breaks_of_lines? shown
    unfold ofLines? at read
    split at read
    next => exact count
    next => cases read
  next => cases read

end PartHead

namespace Upload

theorem head?_escape (s : List Char) :
    (s.flatMap escapeChar).head? = some '\n' ↔ s.head? = some '\n' := by
  cases s with
  | nil => simp
  | cons c rest =>
    rcases escapeChar_cases c with ⟨same, -, -⟩ | ⟨guarded, rfl | rfl⟩
    · simp [same]
    · simp [guarded]
    · simp [guarded]

theorem breaks_escape (s : List Char) :
    breaks '\r' '\n' (s.flatMap escapeChar) = breaks '\r' '\n' s := by
  induction s with
  | nil => rfl
  | cons c rest ih =>
    rcases escapeChar_cases c with ⟨same, -, -⟩ | ⟨guarded, rfl | rfl⟩
    · simp [same, breaks, ih, head?_escape]
    · simp [guarded, breaks, ih]
    · simp [guarded, breaks, ih]

theorem toList_disposition (u : Upload) :
    u.disposition.toList = opening.toList ++ (u.field.toList.flatMap escapeChar ++
      (between.toList ++ (u.filename.toList.flatMap escapeChar ++ ['"']))) := by
  simp [disposition, escape]

theorem breaks_disposition (u : Upload) : breaks 0x0D 0x0A (Utf8.encode u.disposition) =
    breaks '\r' '\n' u.field.toList + breaks '\r' '\n' u.filename.toList := by
  have first : between.toList.head? = some '"' := by decide
  have last : between.toList.getLast? = some '"' := by decide
  have opened : opening.toList.getLast? = some '"' := by decide
  have none : breaks '\r' '\n' opening.toList = 0 ∧ breaks '\r' '\n' between.toList = 0 := by decide
  rw [Utf8.breaks_encode, toList_disposition, breaks_append (by simp [opened]),
    breaks_append (by simp [List.head?_append, first]), breaks_append (by simp [last]),
    breaks_append (by simp), breaks_escape, breaks_escape, none.1, none.2]
  simp [breaks]

theorem head_eq (u : Upload) : Utf8.encode u.head = Utf8.encode u.delimiter ++ (Wire.lineBreak ++
    (Utf8.encode u.disposition ++ (Wire.lineBreak ++
      (Utf8.encode u.typeLine ++ (Wire.lineBreak ++ (Wire.lineBreak ++ [])))))) := by
  have mark : Utf8.encode lineBreak = Wire.lineBreak := by decide
  simp only [head, Utf8.encode_append, mark, List.append_assoc, List.append_nil]

theorem breaks_delimiter (u : Upload) : breaks 0x0D 0x0A (Utf8.encode u.delimiter) = 0 := by
  rw [Utf8.breaks_encode]
  apply breaks_of_not_mem
  have digits : '\r' ∉ u.boundary.id.text := by
    rw [Uuid.text, List.mem_map]
    rintro ⟨d, -, same⟩
    revert d
    decide
  have fixed : '\r' ∉ "--".toList ∧ '\r' ∉ "hasupervisor-".toList := by decide
  simp only [delimiter, Boundary.text, Uuid.render, String.toList_append, String.toList_ofList,
    List.mem_append, not_or]
  exact ⟨fixed.1, fixed.2, digits⟩

theorem breaks_typeLine (u : Upload) : breaks 0x0D 0x0A (Utf8.encode u.typeLine) =
    breaks '\r' '\n' u.contentType.toList := by
  have none : breaks '\r' '\n' "Content-Type: ".toList = 0 := by decide
  rw [Utf8.breaks_encode, typeLine, String.toList_append, breaks_append (by simp), none,
    Nat.zero_add]

theorem breaks_head (u : Upload) : breaks 0x0D 0x0A (Utf8.encode u.head) =
    4 + (breaks '\r' '\n' u.field.toList + breaks '\r' '\n' u.filename.toList +
      breaks '\r' '\n' u.contentType.toList) := by
  have last : breaks 0x0D 0x0A (Wire.lineBreak ++ []) = 1 := by decide
  rw [head_eq, Wire.breaks_lineBreak, Wire.breaks_lineBreak, Wire.breaks_lineBreak,
    breaks_delimiter, breaks_disposition, breaks_typeLine, last]
  omega

theorem names?_disposition (u : Upload) :
    PartHead.names? u.disposition.toList = some (u.field, u.filename) := by
  have shut : between.toList = '"' :: "; filename=\"".toList := by decide
  rw [toList_disposition, shut]
  have text : PartHead.names? (opening.toList ++ (u.field.toList.flatMap escapeChar ++
      '"' :: ("; filename=\"".toList ++ (u.filename.toList.flatMap escapeChar ++ '"' :: [])))) =
        some (String.ofList u.field.toList, String.ofList u.filename.toList) := by
    unfold PartHead.names? opening
    simp only [PartHead.after?_append, PartHead.quoted?_escape, Option.bind_eq_bind,
      Option.bind_some, if_true]
  rw [String.ofList_toList, String.ofList_toList] at text
  exact text

theorem ofLines?_head (u : Upload) : PartHead.ofLines? [Utf8.encode u.delimiter,
    Utf8.encode u.disposition, Utf8.encode u.typeLine] =
      some ⟨u.delimiter, u.field, u.filename, u.contentType⟩ := by
  have kind : PartHead.after? "Content-Type: " u.typeLine.toList = some u.contentType.toList := by
    rw [typeLine, String.toList_append, PartHead.after?_append]
  simp only [PartHead.ofLines?, Utf8.decode?_encode, names?_disposition, kind,
    Option.bind_eq_bind, Option.bind_some, String.ofList_toList]

theorem lines?_head {u : Upload} (whole : breaks 0x0D 0x0A (Utf8.encode u.head) = 4) :
    Wire.lines? (Utf8.encode u.head) = some ([Utf8.encode u.delimiter, Utf8.encode u.disposition,
      Utf8.encode u.typeLine], []) := by
  have names := breaks_disposition u
  have kind := breaks_typeLine u
  have delimiter : u.delimiter ≠ "" := by simp [Upload.delimiter]
  have disposition : u.disposition ≠ "" := by simp [Upload.disposition, opening]
  have typeLine : u.typeLine ≠ "" := by simp [Upload.typeLine]
  rw [breaks_head] at whole
  rw [head_eq, Wire.lines?_append (breaks_delimiter u) (Utf8.encode_ne_nil delimiter),
    Wire.lines?_append (by omega) (Utf8.encode_ne_nil disposition),
    Wire.lines?_append (by omega) (Utf8.encode_ne_nil typeLine), Wire.lines?_lineBreak]
  rfl

theorem read?_head {u : Upload} (whole : breaks 0x0D 0x0A (Utf8.encode u.head) = 4) :
    PartHead.read? (Utf8.encode u.head) =
      some ⟨u.delimiter, u.field, u.filename, u.contentType⟩ := by
  rw [PartHead.read?, lines?_head whole]
  exact ofLines?_head u

/-- What a server reads in the head of an upload. The names are given back by their line whatever
they are, but they stay on that line, and the head is the one that was meant, exactly if there is no
line break in them. A name in the options takes the place of the file's own and fares no better. -/
theorem head_read_iff (boundary : Boundary) (source : List Arrival) (length : Option Nat)
    (field filename : String) :
    let u : Upload := { ofStream boundary source with field, filename, length }
    PartHead.names? u.disposition.toList = some (field, filename) ∧
    (UploadFrames.ofUpload u).head = some (Utf8.encode u.head) ∧
    (PartHead.read? (Utf8.encode u.head) =
        some ⟨"--" ++ boundary.text, field, filename, "application/x-tar"⟩ ↔
      ¬ ['\r', '\n'] <:+: field.toList ∧ ¬ ['\r', '\n'] <:+: filename.toList) ∧
    ∀ options c, (Sends.uploadCall u options c).content =
      .upload { u with filename := (options.bind UploadOptions.filename).getD filename } := by
  intro u
  have kind : breaks '\r' '\n' "application/x-tar".toList = 0 := by decide
  have total : breaks 0x0D 0x0A (Utf8.encode u.head) = 4 + (breaks '\r' '\n' field.toList +
      breaks '\r' '\n' filename.toList + breaks '\r' '\n' "application/x-tar".toList) :=
    u.breaks_head
  have count : breaks 0x0D 0x0A (Utf8.encode u.head) = 4 ↔
      breaks '\r' '\n' field.toList = 0 ∧ breaks '\r' '\n' filename.toList = 0 := by
    omega
  refine ⟨u.names?_disposition, rfl, ?_, fun options c => ?_⟩
  · rw [← breaks_eq_zero_iff, ← breaks_eq_zero_iff, ← count]
    exact ⟨PartHead.breaks_of_read?, read?_head⟩
  · cases options <;> rfl

theorem head_read_torn :
    let u : Upload := { ofStream ⟨Uuid.zero⟩ [.chunk [0x78]] with filename := "a\r\nb" }
    PartHead.read? (Utf8.encode u.head) = none := by
  intro u
  have count : breaks 0x0D 0x0A (Utf8.encode u.head) = 5 := by
    rw [breaks_head]
    decide
  cases read : PartHead.read? (Utf8.encode u.head) with
  | none => rfl
  | some found =>
    have whole := PartHead.breaks_of_read? read
    omega

end Upload

end SupervisorApi
