import SupervisorApi.Proofs.Json.Value
import SupervisorApi.Proofs.Model.Reading

set_option autoImplicit false

namespace SupervisorApi

namespace Json

def IsPart : Frame → List Token → Prop
  | .array => IsValue
  | .object => fun ts => ∃ m : Entry, ts = m.tokens ∧ IsValue m.2

theorem intercalate_eq {α : Type} (c : α) (p : List α) (ps : List (List α)) :
    [c].intercalate (p :: ps) = p ++ ps.flatMap (c :: ·) := by
  induction ps generalizing p with
  | nil => rw [List.intercalate_singleton, List.flatMap_nil, List.append_nil]
  | cons q ps ih =>
    rw [List.intercalate_cons_cons, ih, List.flatMap_cons, List.append_assoc]
    rfl

theorem exists_map {α β : Type} {f : α → β} {P : α → Prop} {bs : List β}
    (each : ∀ b ∈ bs, ∃ a, b = f a ∧ P a) : ∃ l : List α, bs = l.map f ∧ ∀ a ∈ l, P a := by
  induction bs with
  | nil => exact ⟨[], rfl, nofun⟩
  | cons b bs ih =>
    obtain ⟨a, rfl, first⟩ := each b List.mem_cons_self
    obtain ⟨l, rfl, rest⟩ := ih fun b member => each b (List.mem_cons_of_mem _ member)
    exact ⟨a :: l, rfl, List.forall_mem_cons.mpr ⟨first, rest⟩⟩

section Skip

def Closes : List Frame → List Token → List Token → Prop
  | [], ts, rest => ts = rest
  | f :: fs, ts, rest => ∃ (parts : List (List Token)) (more : List Token),
      ts = parts.flatMap (.comma :: ·) ++ f.close :: more ∧ (∀ p ∈ parts, IsPart f p) ∧
        Closes fs more rest

def Follows (f : Frame) (fs : List Frame) (ts rest : List Token) : Prop :=
  ∃ p more, ts = p ++ more ∧ IsPart f p ∧ Closes fs more rest

def Ends (t : Token) : List Frame → List Token → List Token → Prop
  | [], _, _ => False
  | _ :: fs, ts, rest => ∃ more, ts = t :: more ∧ Closes fs more rest

def Takes : Due → List Frame → List Token → List Token → Prop
  | .next => Closes
  | .value => Follows .array
  | .member => Follows .object
  | .firstItem => fun fs ts rest => Follows .array fs ts rest ∨ Ends .rbracket fs ts rest
  | .firstMember => fun fs ts rest => Follows .object fs ts rest ∨ Ends .rbrace fs ts rest

variable {f : Frame} {fs : List Frame} {ts rest : List Token}

theorem takes_due : Takes f.due fs ts rest = Follows f fs ts rest := by
  cases f <;> rfl

theorem takes_of_value {due : Due} (bare : due = .next → fs = [] → False)
    (next : ∀ f fs', due = .next → fs = f :: fs' → False) (member : due = .member → False)
    (firstMember : due = .firstMember → False) (follows : Follows .array fs ts rest) :
    Takes due fs ts rest := by
  cases due with
  | value => exact follows
  | firstItem => exact .inl follows
  | next =>
    cases fs with
    | nil => exact (bare rfl rfl).elim
    | cons f fs => exact (next f fs rfl rfl).elim
  | member => exact (member rfl).elim
  | firstMember => exact (firstMember rfl).elim

theorem exists_parts (taken : Follows f (f :: fs) ts rest ∨ Ends f.close (f :: fs) ts rest) :
    ∃ parts more, ts = [.comma].intercalate parts ++ f.close :: more ∧
      (∀ p ∈ parts, IsPart f p) ∧ Closes fs more rest := by
  rcases taken with ⟨p, _, rfl, part, parts, more, rfl, each, closes⟩ | ⟨more, rfl, closes⟩
  · refine ⟨p :: parts, more, ?_, List.forall_mem_cons.mpr ⟨part, each⟩, closes⟩
    rw [intercalate_eq, List.append_assoc]
  · exact ⟨[], more, rfl, nofun, closes⟩

theorem follows_array (taken : Takes .firstItem (.array :: fs) ts rest) :
    Follows .array fs (.lbracket :: ts) rest := by
  obtain ⟨parts, more, rfl, each, closes⟩ := exists_parts taken
  refine ⟨enclose .lbracket .comma .rbracket parts, more, ?_, .arr parts each, closes⟩
  simp [enclose, Frame.close]

theorem follows_object (taken : Takes .firstMember (.object :: fs) ts rest) :
    Follows .array fs (.lbrace :: ts) rest := by
  obtain ⟨parts, more, rfl, each, closes⟩ := exists_parts taken
  obtain ⟨members, rfl, values⟩ := exists_map each
  refine ⟨enclose .lbrace .comma .rbrace (members.map Entry.tokens), more, ?_,
    .obj members values, closes⟩
  simp [enclose, Frame.close]

theorem follows_one {t : Token} (value : IsValue [t]) (closes : Closes fs ts rest) :
    Follows .array fs (t :: ts) rest :=
  ⟨[t], ts, rfl, value, closes⟩

theorem takes_skip {due : Due} (passed : skip due fs ts = .ok rest) : Takes due fs ts rest := by
  fun_induction skip due fs ts with
  | case1 ts => exact Except.ok.inj passed
  | case2 => cases passed
  | case3 f fs ts ih =>
    obtain ⟨p, _, rfl, part, parts, more, rfl, each, closes⟩ := takes_due ▸ ih passed
    refine ⟨p :: parts, more, ?_, List.forall_mem_cons.mpr ⟨part, each⟩, closes⟩
    simp
  | case4 f fs ts _ ih => exact ⟨[], ts, rfl, nofun, ih passed⟩
  | case5 => cases passed
  | case6 fs ps ts ih =>
    obtain ⟨vs, more, rfl, value, closes⟩ := ih passed
    exact ⟨_, more, rfl, ⟨(ps, vs), rfl, value⟩, closes⟩
  | case7 => cases passed
  | case8 fs ps ts ih =>
    obtain ⟨vs, more, rfl, value, closes⟩ := ih passed
    exact .inl ⟨_, more, rfl, ⟨(ps, vs), rfl, value⟩, closes⟩
  | case9 f fs ts ih => exact .inr ⟨ts, rfl, ih passed⟩
  | case10 => cases passed
  | case11 f fs ts ih => exact .inr ⟨ts, rfl, ih passed⟩
  | case12 due fs ts bare next member first ih =>
    exact takes_of_value bare next member first (follows_array (ih passed))
  | case13 due fs ts bare next member first ih =>
    exact takes_of_value bare next member first (follows_object (ih passed))
  | case14 due fs ts bare next member first ih =>
    exact takes_of_value bare next member first (follows_one .null (ih passed))
  | case15 due fs b ts bare next member first ih =>
    exact takes_of_value bare next member first (follows_one (.bool b) (ih passed))
  | case16 due fs n ts bare next member first ih =>
    exact takes_of_value bare next member first (follows_one (.num n) (ih passed))
  | case17 due fs ps ts bare next _ member _ first ih =>
    exact takes_of_value bare next member first (follows_one (.str ps) (ih passed))
  | case18 => cases passed

end Skip

theorem exists_of_skipValue {ts rest : List Token} (passed : skipValue ts = .ok rest) :
    ∃ vs, ts = vs ++ rest ∧ IsValue vs := by
  obtain ⟨vs, more, rfl, value, same⟩ := takes_skip passed
  exact ⟨vs, congrArg _ same, value⟩

section Read

variable {α σ : Type}

def Reads (read : Reader α) (Q : List Token → Prop) : Prop :=
  ∀ ts a rest, read ts = .ok (a, rest) → ∃ p, ts = p ++ rest ∧ Q p

variable {close : Token} {item : σ → Reader σ} {Q : List Token → Prop}

theorem reads_itemsFrom (each : ∀ s, Reads (item s) Q) {n : Nat} {s s' : σ} {ts rest : List Token}
    (read : itemsFrom close item n s ts = .ok (s', rest)) :
    ∃ p ps, ts = [.comma].intercalate (p :: ps) ++ close :: rest ∧ ∀ q ∈ p :: ps, Q q := by
  induction n generalizing s ts with
  | zero => cases read
  | succ n ih =>
    obtain ⟨⟨s₁, ts₁⟩, first, more⟩ := Except.bind_eq_ok_iff.mp read
    obtain ⟨p, rfl, part⟩ := each s ts s₁ ts₁ first
    simp only at more
    split at more
    next ts₂ =>
      obtain ⟨q, qs, rfl, rest⟩ := ih more
      refine ⟨p, q :: qs, ?_, List.forall_mem_cons.mpr ⟨part, rest⟩⟩
      rw [List.intercalate_cons_cons]
      simp
    next t ts₂ _ =>
      split at more
      next same =>
        cases more
        refine ⟨p, [], ?_, by simpa using part⟩
        rw [List.intercalate_singleton, same]
      next => cases more
    next => cases more

theorem reads_items (each : ∀ s, Reads (item s) Q) (s : σ) : Reads (items close item s)
    fun ts => ∃ parts, ts = [.comma].intercalate parts ++ [close] ∧ ∀ p ∈ parts, Q p := by
  intro ts s' rest read
  unfold items at read
  split at read
  next t ts =>
    split at read
    next same =>
      cases read
      exact ⟨[close], by rw [same]; rfl, [], rfl, nofun⟩
    next =>
      obtain ⟨p, ps, cut, parts⟩ := reads_itemsFrom each read
      refine ⟨[.comma].intercalate (p :: ps) ++ [close], ?_, p :: ps, rfl, parts⟩
      rw [cut, List.append_assoc]
      rfl
  next => cases read

theorem reads_element {read : Reader Json} (reads : Reads read IsValue) (xs : List Json) :
    Reads (element read xs) IsValue := by
  intro ts ys rest found
  obtain ⟨⟨x, ts₁⟩, first, same⟩ := Except.bind_eq_ok_iff.mp found
  cases same
  exact reads ts x _ first

theorem key_eq_ok {ts rest : List Token} {k : String} (read : key ts = .ok (k, rest)) :
    ∃ ps, ts = .str ps :: rest ∧ Piece.text ps = some k := by
  unfold key at read
  split at read
  next ps ts =>
    split at read
    next k said =>
      cases read
      exact ⟨ps, rfl, said⟩
    next => cases read
  next => cases read

theorem colon_eq_ok {ts rest : List Token} (read : colon ts = .ok rest) : ts = .colon :: rest := by
  unfold colon at read
  split at read
  next => cases read; rfl
  next => cases read

theorem reads_member {read : Reader Json} (reads : Reads read IsValue) (ms : Members) :
    Reads (member read ms) (IsPart .object) := by
  intro ts ns rest found
  obtain ⟨⟨k, ts₁⟩, said, more⟩ := Except.bind_eq_ok_iff.mp found
  obtain ⟨ts₂, marked, more⟩ := Except.bind_eq_ok_iff.mp more
  obtain ⟨⟨v, ts₃⟩, last, same⟩ := Except.bind_eq_ok_iff.mp more
  cases same
  obtain ⟨ps, rfl, -⟩ := key_eq_ok said
  obtain rfl := colon_eq_ok marked
  obtain ⟨vs, rfl, value⟩ := reads _ v _ last
  exact ⟨_, rfl, (ps, vs), rfl, value⟩

theorem reads_readObject {depth : Nat} (reads : Reads (read depth) IsValue) :
    Reads (readObject depth) fun ts => IsValue (.lbrace :: ts) := by
  intro ts ms rest found
  obtain ⟨_, cut, parts, rfl, each⟩ := reads_items (reads_member reads) [] ts ms rest found
  obtain ⟨members, rfl, values⟩ := exists_map each
  exact ⟨_, cut, .obj members values⟩

theorem exists_of_scalar {t : Token} {ts rest : List Token} {v : Json}
    (read : (match scalar t with
      | some v => Except.ok (v, ts)
      | none => .error TextFault.malformed) = .ok (v, rest)) :
    ∃ p, t :: ts = p ++ rest ∧ IsValue p := by
  cases stands : scalar t with
  | none => rw [stands] at read; cases read
  | some v =>
    rw [stands] at read
    cases read
    refine ⟨[t], rfl, ?_⟩
    cases t with
    | null => exact .null
    | bool b => exact .bool b
    | num n => exact .num n
    | str ps => exact .str ps
    | _ => cases stands

theorem reads_read (depth : Nat) : Reads (read depth) IsValue := by
  induction depth with
  | zero =>
    intro ts v rest found
    cases ts with
    | nil => cases found
    | cons t ts => exact exists_of_scalar found
  | succ depth ih =>
    intro ts v rest found
    unfold read at found
    split at found
    next d ts same =>
      cases same
      obtain ⟨⟨xs, ts₁⟩, items, same⟩ := Except.bind_eq_ok_iff.mp found
      cases same
      obtain ⟨_, rfl, parts, rfl, values⟩ := reads_items (reads_element ih) [] ts xs _ items
      exact ⟨_, rfl, .arr parts values⟩
    next d ts same =>
      cases same
      obtain ⟨⟨ms, ts₁⟩, members, same⟩ := Except.bind_eq_ok_iff.mp found
      cases same
      obtain ⟨_, rfl, value⟩ := reads_readObject ih ts ms _ members
      exact ⟨_, rfl, value⟩
    next t ts _ _ => exact exists_of_scalar found
    next => cases found

end Read

end Json

end SupervisorApi
