import SupervisorApi.Proofs.Body.Upload
import SupervisorApi.Proofs.Client.Target
import SupervisorApi.Proofs.Model.Reading

set_option autoImplicit false

namespace SupervisorApi

namespace LowerCase

theorem char_char (c : Char) : char (char c) = char c := by
  have bounds (d : Char) : 'A' ≤ d ∧ d ≤ 'Z' ↔ 65 ≤ d.toNat ∧ d.toNat ≤ 90 := Iff.rfl
  unfold char
  simp only [bounds]
  split
  next upper =>
    have small : (Char.ofNat (c.toNat + 32)).toNat = c.toNat + 32 :=
      Utf8.toNat_ofNat_of_valid (by unfold Nat.isValidChar; omega)
    rw [if_neg (by omega)]
  next => rfl

theorem ofText_ofText (s : String) : ofText (ofText s) = ofText s := by
  simp [ofText, Function.comp_def, char_char]

end LowerCase

theorem Header.eq_of_value? {text : String} {value : Bytes} (accepted : value? text = some value) :
    value = Utf8.encode text := by
  simp only [value?] at accepted
  split at accepted
  next => exact (Option.some.inj accepted).symm
  next => cases accepted

namespace Headers

theorem mem_names_iff {name : String} {hs : Headers} : name ∈ hs.names ↔ hs.values name ≠ [] := by
  simp [names, values]

theorem values_cons (name : String) (h : Header) (hs : Headers) :
    values name (h :: hs) = (if h.name = name then [h.value] else []) ++ values name hs := by
  by_cases same : h.name = name <;> simp [values, same]

end Headers

namespace Upload

open Arrival

variable {u : Upload} {body : Bytes}

theorem body_of_bytes (sent : (RequestBody.ofUpload u).bytes? = .ok body) :
    body = Utf8.encode u.head ++ u.fileBytes ++ Utf8.encode u.tail := by
  cases fault : u.source.findSome? fault? with
  | none =>
    rw [bytes_of_good fault] at sent
    exact (Except.ok.inj sent).symm
  | some text =>
    obtain ⟨frames, whole, -⟩ := Except.map_eq_ok_iff.mp sent
    have closed : .error (.encode ("reading upload failed: " ++ text)) ∈
        (RequestBody.ofUpload u).frames := by
      simp [frames_eq, closing, fault]
    obtain ⟨_, same⟩ := exists_of_forall₂ (List.Forall₂.flip (mapM_eq_ok_iff.mp whole)) closed
    cases same

def formBytes (u : Upload) : Bytes :=
  Utf8.encode ("--" ++ u.boundary.text ++ "\r\n") ++
    Utf8.encode (u.disposition ++ "\r\n" ++ u.typeLine ++ "\r\n\r\n") ++ u.fileBytes ++
      Utf8.encode ("\r\n--" ++ u.boundary.text ++ "--\r\n")

theorem formBytes_eq (u : Upload) :
    u.formBytes = Utf8.encode u.head ++ u.fileBytes ++ Utf8.encode u.tail := by
  have first : u.head = "--" ++ u.boundary.text ++ "\r\n" ++
      (u.disposition ++ "\r\n" ++ u.typeLine ++ "\r\n\r\n") := by
    rw [← String.toList_inj]
    simp [head, delimiter, lineBreak]
  have last : u.tail = "\r\n--" ++ u.boundary.text ++ "--\r\n" := by
    rw [← String.toList_inj]
    simp [tail, delimiter, lineBreak]
  rw [formBytes, first, last, Utf8.encode_append _ (u.disposition ++ _ ++ _ ++ _)]

end Upload

namespace Outgoing

variable {o : Outgoing} {u : Upload} {r : Request}

theorem framing_of_upload (form : o.body = .ofUpload u) :
    o.framing = .noBody ↔ o.method.isBodiless = true ∧ u.length = none := by
  have going : o.body.isEnd = false := form ▸ rfl
  simp only [framing, going, Bool.false_eq_true, if_false]
  simp only [form, RequestBody.ofUpload, RequestBody.sizeHint, UploadFrames.sizeHint,
    UploadFrames.ofUpload]
  cases u.length <;> simp

-- A form goes out as a whole, unless it is of no known length and its method leaves bodies behind.
theorem body_of_upload (form : o.body = .ofUpload u) (arrived : o.arrive = .ok r) :
    r.body = if o.method.isBodiless = true ∧ u.length = none then [] else u.formBytes := by
  obtain ⟨-, -, -, -, -, sent⟩ := of_arrive arrived
  rw [sentBody] at sent
  split
  next unsent =>
    rw [if_pos ((framing_of_upload form).mpr unsent)] at sent
    exact (Except.ok.inj (RequestBody.bytes?_empty.symm.trans sent)).symm
  next whole =>
    rw [if_neg (mt (framing_of_upload form).mp whole), form] at sent
    exact (Upload.body_of_bytes sent).trans u.formBytes_eq.symm

end Outgoing

namespace Call

namespace Setting

def header? : Setting → Option Header
  | .header name value => some ⟨LowerCase.ofText name, value⟩
  | _ => none

def kind? : Setting → Option ResponseKind
  | .response kind => some kind
  | _ => none

def content? : Setting → Option Content
  | .json value => some (.json value)
  | .raw data => some (.raw data)
  | .upload u => some (.upload u)
  | _ => none

theorem name_of_header? {x : Setting} {h : Header} (named : x.header? = some h) :
    LowerCase.ofText h.name = h.name := by
  cases x with
  | header name value =>
    cases named
    exact LowerCase.ofText_ofText name
  | _ => cases named

def given? (name : String) : Setting → Option Bytes
  | .header other value =>
    if LowerCase.ofText other = LowerCase.ofText name then some value else none
  | _ => none

end Setting

open Setting

def given (made : List Setting) (name : String) : List Bytes :=
  made.filterMap (given? name)

def kindOf (method : Method) (made : List Setting) : ResponseKind :=
  (made.filterMap kind?).getLast?.getD (.standard method)

def contentOf (made : List Setting) : Content :=
  (made.filterMap content?).getLast?.getD .empty

theorem headers_set (c : Call) (x : Setting) :
    (c.set x).headers = c.headers ++ x.header?.toList := by
  cases x <;> simp [set, header?]

theorem kind_set (c : Call) (x : Setting) : (c.set x).kind = x.kind?.or c.kind := by
  cases x <;> rfl

theorem content_set (c : Call) (x : Setting) : (c.set x).content = x.content?.getD c.content := by
  cases x <;> rfl

theorem method_set (c : Call) (x : Setting) : (c.set x).method = c.method := by
  cases x <;> rfl

theorem headers_foldl (c : Call) (made : List Setting) :
    (made.foldl set c).headers = c.headers ++ made.filterMap header? := by
  induction made generalizing c with
  | nil => simp
  | cons x rest ih =>
    rw [List.foldl_cons, ih, headers_set, List.append_assoc, List.filterMap_cons]
    cases x.header? <;> rfl

theorem kind_foldl (c : Call) (made : List Setting) :
    (made.foldl set c).kind = (made.filterMap kind?).getLast?.or c.kind := by
  induction made generalizing c with
  | nil => rfl
  | cons x rest ih =>
    rw [List.foldl_cons, ih, kind_set, List.filterMap_cons]
    cases x.kind? with
    | none => rfl
    | some kind => simp [List.getLast?_cons]

theorem content_foldl (c : Call) (made : List Setting) :
    (made.foldl set c).content = (made.filterMap content?).getLast?.getD c.content := by
  induction made generalizing c with
  | nil => rfl
  | cons x rest ih =>
    rw [List.foldl_cons, ih, content_set, List.filterMap_cons]
    cases x.content? with
    | none => rfl
    | some content => simp [List.getLast?_cons]

theorem method_foldl (c : Call) (made : List Setting) :
    (made.foldl set c).method = c.method := by
  induction made generalizing c with
  | nil => rfl
  | cons x rest ih => rw [List.foldl_cons, ih, method_set]

theorem values_filterMap (made : List Setting) (name : String) :
    Headers.values (LowerCase.ofText name) (made.filterMap header?) = given made name := by
  induction made with
  | nil => rfl
  | cons x rest ih =>
    cases x with
    | header other value =>
      by_cases same : LowerCase.ofText other = LowerCase.ofText name <;>
        simp_all [Headers.values, given, given?, header?]
    | _ => exact ih

variable {method : Method} {path : String} {made : List Setting}

theorem headers_ofSettings :
    (ofSettings method path made).headers = made.filterMap header? :=
  (headers_foldl _ made).trans (List.nil_append _)

theorem responseKind_ofSettings :
    (ofSettings method path made).responseKind = kindOf method made := by
  rw [responseKind, ofSettings, kind_foldl, method_foldl, kindOf]
  simp [ofPath]

theorem content_ofSettings : (ofSettings method path made).content = contentOf made :=
  content_foldl _ made

end Call

namespace Client

open Call (Setting given kindOf contentOf)

variable {settings : ClientSettings} {c : Client} {first : Session} {around : Surroundings}
  {s : Session} {call : Call} {reaction : Reaction} {r : Request}

theorem values_defaults (c : Client) (call : Call) (name : String) :
    (c.defaults call).values name =
      (if "authorization" = name then [c.authorization] else []) ++
      ((if "accept" = name then [Utf8.encode call.responseKind.accept] else []) ++
      ((if "user-agent" = name then [c.userAgent] else []) ++
      (if "content-type" = name then (call.content.mediaType.map Utf8.encode).toList
        else []))) := by
  have none : Headers.values name [] = [] := rfl
  rw [defaults, List.cons_append, List.cons_append, List.cons_append, List.nil_append]
  cases call.content.mediaType <;>
    simp [Headers.values_cons, Header.ofText, none]

theorem name_of_mem_defaults {h : Header} (member : h ∈ c.defaults call) :
    h.name ∈ ["authorization", "accept", "user-agent", "content-type"] := by
  simp only [defaults, List.mem_append, List.mem_cons, List.not_mem_nil, or_false,
    Option.mem_toList, Option.map_eq_some_iff] at member
  rcases member with (rfl | rfl | rfl) | ⟨text, -, rfl⟩ <;> simp [Header.ofText]

def headers (c : Client) (call : Call) : Headers :=
  (c.defaults call).overlay call.headers

theorem headers_of_request (sent : (c.call around s call reaction).request = some r) :
    r.headers = c.headers call := by
  obtain ⟨taken, o, reached⟩ := sent_of_request sent
  obtain ⟨uri, -, rfl⟩ := of_prepare reached.prepared
  exact (Outgoing.of_arrive reached.arrived).2.2.2.1

theorem body_of_request {u : Upload} (form : call.content = .upload u)
    (sent : (c.call around s call reaction).request = some r) :
    r.body = if call.method.isBodiless = true ∧ u.length = none then [] else u.formBytes := by
  obtain ⟨taken, o, reached⟩ := sent_of_request sent
  obtain ⟨uri, -, rfl⟩ := of_prepare reached.prepared
  exact Outgoing.body_of_upload (congrArg Content.body form) reached.arrived

def transportNames : List String :=
  ["host", "content-length", "transfer-encoding"]

/-- The headers that a request has to have, by what was set for its call. Names that were set stand
with their values, and all others as the client has them. -/
structure Composed (settings : ClientSettings) (method : Method) (made : List Setting)
    (r : Request) : Prop where
  lowered : ∀ h ∈ r.headers, LowerCase.ofText h.name = h.name
  own : ∀ name, LowerCase.ofText name ∉ transportNames → given made name ≠ [] →
    r.headers.values (LowerCase.ofText name) = given made name
  authorization : given made "authorization" = [] →
    r.headers.values "authorization" = [Utf8.encode ("Bearer " ++ settings.token)]
  accept : given made "accept" = [] →
    r.headers.values "accept" = [Utf8.encode (kindOf method made).accept]
  userAgent : given made "user-agent" = [] →
    r.headers.values "user-agent" = [Utf8.encode settings.userAgent]
  contentType : given made "content-type" = [] →
    r.headers.values "content-type" =
      match contentOf made with
      | .empty => []
      | .json _ => [Utf8.encode "application/json"]
      | .raw _ => [Utf8.encode "application/octet-stream"]
      | .upload u => [Utf8.encode ("multipart/form-data; boundary=" ++ u.boundary.text)]
  nothingElse : ∀ name, given made name = [] →
    LowerCase.ofText name ∉
      transportNames ++ ["authorization", "accept", "user-agent", "content-type"] →
    r.headers.values (LowerCase.ofText name) = []
  form : ∀ u, contentOf made = .upload u →
    r.body = if method.isBodiless = true ∧ u.length = none then [] else u.formBytes

variable {method : Method} {path : String} {made : List Setting}

theorem values_of_request
    (sent : (c.call around s (Call.ofSettings method path made) reaction).request = some r)
    (name : String) :
    r.headers.values (LowerCase.ofText name) =
      if given made name = [] then
        (c.defaults (.ofSettings method path made)).values (LowerCase.ofText name)
      else given made name := by
  have mine : Headers.values (LowerCase.ofText name)
      (Call.ofSettings method path made).headers = given made name := by
    rw [Call.headers_ofSettings, Call.values_filterMap]
  rw [headers_of_request sent, headers, Headers.values_overlay, mine]
  by_cases unset : given made name = []
  · rw [if_pos unset, if_neg (by rw [Headers.mem_names_iff, mine]; exact not_not_intro unset)]
  · rw [if_neg unset, if_pos (by rwa [Headers.mem_names_iff, mine])]

/-- A request has its headers from what was set for its call and from its client. A name that was
set, in whatever letters, stands with the values it was given, in their order; every other name is
not there, or it is the token, the kind of answer, the client or the kind of body, and stands once.
The boundary that a form speaks of is that of its body. -/
theorem headers_composed (built : settings.build = .ok (c, first)) (around : Surroundings)
    (s : Session) (reaction : Reaction) (method : Method) (path : String) (made : List Setting)
    (sent : (c.call around s (Call.ofSettings method path made) reaction).request = some r) :
    Composed settings method made r := by
  obtain ⟨-, token, agent, -⟩ := ClientSettings.of_build built
  have values := values_of_request sent
  have standard {name : String} (low : LowerCase.ofText name = name)
      (unset : given made name = []) :
      r.headers.values name = (c.defaults (.ofSettings method path made)).values name := by
    have found := values name
    rwa [if_pos unset, low] at found
  have low : ∀ name ∈ ["authorization", "accept", "user-agent", "content-type"],
      LowerCase.ofText name = name := by decide +kernel
  constructor
  case lowered =>
    intro h member
    rw [headers_of_request sent, headers, Headers.overlay, List.mem_append,
      List.mem_filter] at member
    rcases member with ⟨member, -⟩ | member
    · exact low _ (name_of_mem_defaults member)
    · rw [Call.headers_ofSettings, List.mem_filterMap] at member
      obtain ⟨x, -, named⟩ := member
      exact Setting.name_of_header? named
  case own =>
    intro name _ set
    rw [values, if_neg set]
  case authorization =>
    intro unset
    rw [standard (low _ (by simp)) unset, values_defaults, Header.eq_of_value? token]
    simp
  case accept =>
    intro unset
    rw [standard (low _ (by simp)) unset, values_defaults, Call.responseKind_ofSettings]
    simp
  case userAgent =>
    intro unset
    rw [standard (low _ (by simp)) unset, values_defaults, Header.eq_of_value? agent]
    simp
  case contentType =>
    intro unset
    rw [standard (low _ (by simp)) unset, values_defaults, Call.content_ofSettings,
      if_neg (by decide), if_neg (by decide), if_neg (by decide), if_pos rfl]
    cases Call.contentOf made <;> rfl
  case nothingElse =>
    intro name unset other
    rw [values, if_pos unset, values_defaults]
    simp only [List.mem_append, List.mem_cons, not_or, List.not_mem_nil, not_false_eq_true] at other
    obtain ⟨-, authorization, accept, agent, content, -⟩ := other
    simp [Ne.symm authorization, Ne.symm accept, Ne.symm agent, Ne.symm content]
  case form =>
    intro u form
    rw [body_of_request (Call.content_ofSettings.trans form) sent, Call.ofSettings,
      Call.method_foldl]
    rfl

-- Two values of one name in different letters, around a file and a name that the client has too.
def twice : List Setting :=
  [.header "X-Test" [1], .upload (.ofStream ⟨Uuid.zero⟩ [.chunk [2]]), .header "User-Agent" [3],
    .response .text, .header "x-TEST" [4]]

theorem headers_composed_of_twice :
    ∃ c first r, (ClientSettings.adopting "http://supervisor/api" "token").build = .ok (c, first) ∧
      (c.call .open first (Call.ofSettings .post "backups/new/upload" twice) .hungUp).request =
        some r ∧
      r.headers.values "x-test" = [[1], [4]] ∧ r.headers.values "user-agent" = [[3]] ∧
      r.headers.values "authorization" = [Utf8.encode "Bearer token"] ∧
      r.headers.values "accept" = [Utf8.encode "text/plain, */*"] ∧
      r.headers.values "content-type" = [Utf8.encode ("multipart/form-data; boundary=" ++
        "hasupervisor-00000000000000000000000000000000")] ∧
      r.body = (Upload.ofStream ⟨Uuid.zero⟩ [.chunk [2]]).formBytes := by
  have answered : ((Client.adopting "http://supervisor/api" "token").call .open
      (.adopted .standard) (Call.ofSettings .post "backups/new/upload" twice)
        .hungUp).request.isSome = true := by
    decide +kernel
  obtain ⟨r, sent⟩ := Option.isSome_iff_exists.mp answered
  have built : (ClientSettings.adopting "http://supervisor/api" "token").build =
      .ok (.adopting "http://supervisor/api" "token", .adopted .standard) := rfl
  have composed := headers_composed built _ _ _ .post "backups/new/upload" twice sent
  have test : given twice "X-Test" = [[1], [4]] := by decide +kernel
  have agent : given twice "User-Agent" = [[3]] := by decide +kernel
  have own {name low : String} {values : List Bytes} (same : LowerCase.ofText name = low)
      (set : given twice name = values) (some : values ≠ []) (apart : low ∉ transportNames) :
      r.headers.values low = values :=
    same ▸ set ▸ composed.own name (same ▸ apart) (set ▸ some)
  have content : Call.contentOf twice = .upload (.ofStream ⟨Uuid.zero⟩ [.chunk [2]]) := rfl
  have multipart := composed.contentType (by decide +kernel)
  rw [content] at multipart
  exact ⟨_, _, r, built, sent, own (by decide +kernel) test (by simp) (by decide),
    own (by decide +kernel) agent (by simp) (by decide), composed.authorization (by decide +kernel),
    composed.accept (by decide +kernel), multipart, composed.form _ content⟩

end Client

end SupervisorApi
