import SupervisorApi.Proofs.Client.Headers
import SupervisorApi.Proofs.Endpoint.Calls

set_option autoImplicit false

namespace SupervisorApi

namespace Header

def IsText (text : String) : Prop :=
  ∀ ch ∈ text.toList, ch.toNat = 0x09 ∨ 0x20 ≤ ch.toNat ∧ ch.toNat ≠ 0x7F

theorem isValueByte_iff {b : UInt8} :
    isValueByte b = true ↔ b.toNat = 0x09 ∨ 0x20 ≤ b.toNat ∧ b.toNat ≠ 0x7F := by
  simp [isValueByte, UInt8.le_iff_toNat_le, ← UInt8.toNat_inj, or_comm]

-- Only bytes below 0x80 are ever refused, and these are characters of their own.
theorem all_isValueByte_iff {text : String} :
    (Utf8.encode text).all isValueByte = true ↔ IsText text := by
  rw [List.all_eq_true]
  constructor
  · intro good ch member
    by_cases ascii : ch.toNat < 0x80
    · have value : (UInt8.ofNat ch.toNat).toNat = ch.toNat := Utf8.toNat_byte (by omega)
      have written : UInt8.ofNat ch.toNat ∈ Utf8.encode text := by
        rwa [Utf8.mem_encode_ascii (by omega), value, Char.ofNat_toNat]
      exact value ▸ isValueByte_iff.mp (good _ written)
    · exact .inr (by omega)
  · intro plain b member
    by_cases ascii : b.toNat < 0x80
    · have value : (Char.ofNat b.toNat).toNat = b.toNat :=
        Utf8.toNat_ofNat_of_valid (by unfold Nat.isValidChar; omega)
      have same := plain _ ((Utf8.mem_encode_ascii ascii).mp member)
      rw [value] at same
      exact isValueByte_iff.mpr same
    · exact isValueByte_iff.mpr (.inr (by omega))

theorem value?_of_isText {text : String} (plain : IsText text) :
    value? text = some (Utf8.encode text) :=
  if_pos (all_isValueByte_iff.mpr plain)

theorem value?_eq_none {text : String} (other : ¬ IsText text) : value? text = none :=
  if_neg (mt all_isValueByte_iff.mp other)

theorem isText_bearer {token : String} : IsText ("Bearer " ++ token) ↔ IsText token := by
  have mark : IsText "Bearer " := all_isValueByte_iff.mp (by decide +kernel)
  simp only [IsText, String.toList_append, List.mem_append] at mark ⊢
  exact ⟨fun all ch member => all ch (.inr member),
    fun token ch member => member.elim (mark ch) (token ch)⟩

end Header

theorem Headers.names_overlay (base own : Headers) :
    (overlay base own).names = base.names.filter (fun name => !own.names.contains name) ++
      own.names := by
  simp [overlay, names, List.filter_map, Function.comp_def]

structure Request.AlikeButToken (r r' : Request) : Prop where
  whole : r' = { r with headers := r'.headers }
  names : r'.headers.names = r.headers.names
  values : ∀ name, name ≠ "authorization" → r'.headers.values name = r.headers.values name

structure Exchange.AlikeButToken {α : Type} (x x' : Exchange α) : Prop where
  session : x'.session = x.session
  events : x'.events = x.events
  result : x'.result = x.result
  request : Option.Rel Request.AlikeButToken x.request x'.request

namespace Exchange

variable {α β : Type}

theorem alikeButToken_refuse (s : Session) (e : ApiError) :
    (Exchange.refuse s e : Exchange α).AlikeButToken (.refuse s e) :=
  ⟨rfl, rfl, rfl, .none⟩

theorem AlikeButToken.andThen {x x' : Exchange α} (alike : x.AlikeButToken x')
    (f : α → Awaited (Except ApiError β)) : (x.andThen f).AlikeButToken (x'.andThen f) := by
  refine ⟨alike.session, alike.events, ?_, alike.request⟩
  rw [Exchange.andThen, alike.result]
  rfl

end Exchange

namespace ClientSettings

variable (settings : ClientSettings) {token : String}

def withToken (token : String) : ClientSettings :=
  { settings with token := token }

def rest : Except BuildError (String × Bytes) := do
  let baseUrl ← Host.normalize settings.host
  let userAgent ← headerValue "user-agent" settings.userAgent
  return (baseUrl, userAgent)

theorem build_withToken (plain : Header.IsText token) :
    (settings.withToken token).build = settings.rest.map fun found =>
      (⟨found.1, Utf8.encode ("Bearer " ++ token), found.2, settings.timeout⟩,
        .start settings.transport) := by
  have written := Header.value?_of_isText (Header.isText_bearer.mpr plain)
  simp only [build, rest, withToken, headerValue, written]
  cases Host.normalize settings.host with
  | error _ => rfl
  | ok _ => cases Header.value? settings.userAgent <;> rfl

theorem build_withToken_of_refused (other : ¬ Header.IsText token) :
    (settings.withToken token).build =
      (Host.normalize settings.host).bind fun _ => .error (.invalidHeader "authorization") := by
  have refused := Header.value?_eq_none (mt Header.isText_bearer.mp other)
  simp only [build, withToken, headerValue, refused]
  cases Host.normalize settings.host <;> rfl

end ClientSettings

def Client.withAuthorization (c : Client) (authorization : Bytes) : Client :=
  { c with authorization := authorization }

namespace Outgoing

def withHeaders (o : Outgoing) (headers : Headers) : Outgoing :=
  { o with headers := headers }

theorem arrive_withHeaders (o : Outgoing) (headers : Headers) :
    (o.withHeaders headers).arrive = o.arrive.map fun r => { r with headers := headers } := by
  have body : (o.withHeaders headers).sentBody = o.sentBody := rfl
  rw [arrive, arrive, body]
  cases o.sentBody.bytes? <;> rfl

end Outgoing

namespace Client

theorem attempt_withHeaders (around : Surroundings) (t : Transport) (o : Outgoing)
    (headers : Headers) : attempt around t (o.withHeaders headers) =
      (attempt around t o).map fun r => { r with headers := headers } := by
  simp only [attempt, Outgoing.arrive_withHeaders]
  by_cases reached : around.reaches t (Uri.address o.authority) o.secure = true
  · simp only [Outgoing.withHeaders, reached, if_true]
    cases o.arrive <;> rfl
  · simp only [Outgoing.withHeaders, reached, Bool.false_eq_true, if_false]
    rfl

theorem send_map {f : Request → Request} (kind : ResponseKind) (reaction : Reaction)
    (attempted : Except Cause Request) :
    send kind reaction (attempted.map f) =
      ((send kind reaction attempted).1.map f, (send kind reaction attempted).2) := by
  cases attempted with
  | error cause => rfl
  | ok r => cases reaction <;> rfl

theorem prepare_withAuthorization (c : Client) (authorization : Bytes) (call : Call) :
    (c.withAuthorization authorization).prepare call =
      (c.prepare call).map fun o => o.withHeaders
        ((c.withAuthorization authorization).headers call) := by
  have address : (c.withAuthorization authorization).url call = c.url call := rfl
  unfold prepare
  rw [address]
  cases Uri.parse (c.url call) <;> rfl

theorem call_withAuthorization (c : Client) (authorization : Bytes) (around : Surroundings)
    (s : Session) (call : Call) (reaction : Reaction) :
    (c.withAuthorization authorization).call around s call reaction =
      { c.call around s call reaction with
        request := (c.call around s call reaction).request.map fun r =>
          { r with headers := (c.withAuthorization authorization).headers call } } := by
  unfold Client.call
  cases call.begin s with
  | error _ => rfl
  | ok taken =>
    have other := prepare_withAuthorization c authorization call
    cases prepared : c.prepare call with
    | error e =>
      simp only [prepared, Except.map] at other
      simp only [finish, other, prepared, Option.map_none]
    | ok o =>
      simp only [prepared, Except.map] at other
      simp only [finish, other, prepared, attempt_withHeaders, send_map]
      rfl

variable {c : Client} {around : Surroundings} {s : Session} {call : Call} {reaction : Reaction}
  {r : Request}

theorem headers_withAuthorization (c : Client) (authorization : Bytes) (call : Call)
    (own : "authorization" ∈ call.headers.names) :
    (c.withAuthorization authorization).headers call = c.headers call := by
  simp [headers, Headers.overlay, defaults, withAuthorization, own]

theorem alike_of_request (authorization : Bytes)
    (sent : (c.call around s call reaction).request = some r) :
    r.AlikeButToken { r with headers := (c.withAuthorization authorization).headers call } := by
  have before := headers_of_request sent
  refine ⟨rfl, ?_, fun name other => ?_⟩
  · rw [before, headers, headers, Headers.names_overlay, Headers.names_overlay]
    rfl
  · -- under every other name both have the same of their own
    rw [before, headers, headers, Headers.values_overlay, Headers.values_overlay,
      values_defaults, values_defaults, if_neg (Ne.symm other), if_neg (Ne.symm other)]
    rfl

theorem call_alike (c : Client) (authorization : Bytes) (around : Surroundings) (s : Session)
    (call : Call) (reaction : Reaction) :
    (c.call around s call reaction).AlikeButToken
      ((c.withAuthorization authorization).call around s call reaction) := by
  rw [call_withAuthorization]
  refine ⟨rfl, rfl, rfl, ?_⟩
  cases sent : (c.call around s call reaction).request with
  | none => exact .none
  | some r => exact .some (alike_of_request authorization sent)

theorem describe_withAuthorization (c : Client) (authorization : Bytes) (s : Session) :
    (c.withAuthorization authorization).describe s = c.describe s := by
  unfold describe Header.describe
  rfl

theorem call_of_overridden (c : Client) (authorization : Bytes) (around : Surroundings)
    (s : Session) (call : Call) (reaction : Reaction)
    (own : "authorization" ∈ call.headers.names) :
    (c.withAuthorization authorization).call around s call reaction =
      c.call around s call reaction := by
  have same : (c.call around s call reaction).request.map (fun r =>
      { r with headers := (c.withAuthorization authorization).headers call }) =
        (c.call around s call reaction).request := by
    cases sent : (c.call around s call reaction).request with
    | none => rfl
    | some r =>
      rw [headers_withAuthorization c authorization call own, ← headers_of_request sent]
      rfl
  rw [call_withAuthorization, same]

end Client

namespace Endpoint

theorem exchange_alike (e : Endpoint) (c : Client) (authorization : Bytes) (around : Surroundings)
    (s : Session) (arguments : Arguments) (v : e.sends.Val) (reaction : Reaction) :
    (e.exchange c around s arguments v reaction).AlikeButToken
      (e.exchange (c.withAuthorization authorization) around s arguments v reaction) := by
  unfold exchange
  split
  next => exact Exchange.alikeButToken_refuse s _
  next call made => exact (c.call_alike authorization around s call reaction).andThen _

end Endpoint

namespace ClientSettings

/-- A token is in one header of a request, and nowhere else. Clients whose tokens are accepted are
made alike, or fail to be made for the same reason; they show the same of themselves, and a call
of one, whether to an endpoint or not, has the same result, events and session as the same call of
the other, and the same request up to the value of that header. Where the call sets the header
itself, the requests are the same. A token that is refused is not part of the reason. -/
theorem token_only_in_authorization (settings : ClientSettings) :
    (∃ e, ∀ token, ¬ Header.IsText token → (settings.withToken token).build = .error e) ∧
    ∀ token token',
      (settings.withToken token').describe = (settings.withToken token).describe ∧
      (Header.IsText token → Header.IsText token' →
        (∃ e, (settings.withToken token).build = .error e ∧
          (settings.withToken token').build = .error e) ∨
        ∃ c c' first, (settings.withToken token).build = .ok (c, first) ∧
          (settings.withToken token').build = .ok (c', first) ∧
          (∀ s, c'.describe s = c.describe s) ∧
          (∀ around s call reaction,
            (c.call around s call reaction).AlikeButToken (c'.call around s call reaction) ∧
            ("authorization" ∈ call.headers.names →
              c'.call around s call reaction = c.call around s call reaction)) ∧
          ∀ (e : Endpoint) around s arguments v reaction,
            (e.exchange c around s arguments v reaction).AlikeButToken
              (e.exchange c' around s arguments v reaction)) := by
  refine ⟨?_, fun token token' => ⟨rfl, fun plain plain' => ?_⟩⟩
  · -- the host is looked at before the token
    cases host : Host.normalize settings.host with
    | error e =>
      refine ⟨e, fun token other => ?_⟩
      rw [build_withToken_of_refused settings other, host]
      rfl
    | ok baseUrl =>
      refine ⟨.invalidHeader "authorization", fun token other => ?_⟩
      rw [build_withToken_of_refused settings other, host]
      rfl
  · rw [build_withToken settings plain, build_withToken settings plain']
    cases settings.rest with
    | error e => exact .inl ⟨e, rfl, rfl⟩
    | ok found =>
      let c : Client :=
        ⟨found.1, Utf8.encode ("Bearer " ++ token), found.2, settings.timeout⟩
      let authorization := Utf8.encode ("Bearer " ++ token')
      exact .inr ⟨c, c.withAuthorization authorization, .start settings.transport, rfl, rfl,
        c.describe_withAuthorization authorization,
        fun around s call reaction => ⟨c.call_alike authorization around s call reaction,
          c.call_of_overridden authorization around s call reaction⟩,
        fun e around s arguments v reaction =>
          e.exchange_alike c authorization around s arguments v reaction⟩

theorem token_only_in_authorization_of_two :
    ∃ c c' first r r', (adopting "http://supervisor/api" "one").build = .ok (c, first) ∧
      (adopting "http://supervisor/api" "two").build = .ok (c', first) ∧
      (c.call .open first (.ofPath .get "info") .hungUp).request = some r ∧
      (c'.call .open first (.ofPath .get "info") .hungUp).request = some r' ∧
      r.AlikeButToken r' ∧ r.headers.values "authorization" = [Utf8.encode "Bearer one"] ∧
      r'.headers.values "authorization" = [Utf8.encode "Bearer two"] := by
  have built : (adopting "http://supervisor/api" "one").build =
      .ok (.adopting "http://supervisor/api" "one", .adopted .standard) := rfl
  have built' : (adopting "http://supervisor/api" "two").build =
      .ok (.adopting "http://supervisor/api" "two", .adopted .standard) := rfl
  have sent : ((Client.adopting "http://supervisor/api" "one").call .open (.adopted .standard)
      (.ofPath .get "info") .hungUp).request.map (fun r => r.headers.values "authorization") =
        some [Utf8.encode "Bearer one"] := by
    decide +kernel
  have sent' : ((Client.adopting "http://supervisor/api" "two").call .open (.adopted .standard)
      (.ofPath .get "info") .hungUp).request.map (fun r => r.headers.values "authorization") =
        some [Utf8.encode "Bearer two"] := by
    decide +kernel
  obtain ⟨r, asked, token⟩ := Option.map_eq_some_iff.mp sent
  obtain ⟨r', asked', token'⟩ := Option.map_eq_some_iff.mp sent'
  have plain : Header.IsText "one" := Header.all_isValueByte_iff.mp (by decide +kernel)
  have plain' : Header.IsText "two" := Header.all_isValueByte_iff.mp (by decide +kernel)
  have both := (token_only_in_authorization (adopting "http://supervisor/api" "one")).2 "one" "two"
  rcases both.2 plain plain' with
    ⟨e, failed, -⟩ | ⟨c, c', first, made, made', -, alike, -⟩
  · cases built.symm.trans failed
  · cases built.symm.trans made
    cases built'.symm.trans made'
    have related := (alike .open (.adopted .standard) (.ofPath .get "info") .hungUp).1.request
    rw [asked, asked'] at related
    cases related with
    | some same => exact ⟨_, _, _, r, r', built, built', asked, asked', same, token, token'⟩

end ClientSettings

end SupervisorApi
