import SupervisorApi.Json.Reader
import SupervisorApi.Proofs.Json.Token

set_option autoImplicit false

namespace SupervisorApi

namespace Json

abbrev Entry := List Piece × List Token

def Entry.tokens (m : Entry) : List Token :=
  .str m.1 :: .colon :: m.2

inductive IsValue : List Token → Prop where
  | null : IsValue [.null]
  | bool (b : Bool) : IsValue [.bool b]
  | num (n : Numeral) : IsValue [.num n]
  | str (ps : List Piece) : IsValue [.str ps]
  | arr (parts : List (List Token)) (each : ∀ ts ∈ parts, IsValue ts) :
    IsValue (enclose .lbracket .comma .rbracket parts)
  | obj (members : List Entry) (each : ∀ m ∈ members, IsValue m.2) :
    IsValue (enclose .lbrace .comma .rbrace (members.map Entry.tokens))

def begins : Token → Bool
  | .null | .bool _ | .num _ | .str _ | .lbracket | .lbrace => true
  | _ => false

theorem IsValue.exists_cons {ts : List Token} (value : IsValue ts) :
    ∃ t rest, ts = t :: rest ∧ begins t = true := by
  cases value <;> exact ⟨_, _, rfl, rfl⟩

theorem not_mem_intercalate {t : Token} (other : t ≠ .comma) {parts : List (List Token)}
    (each : ∀ ts ∈ parts, t ∉ ts) : t ∉ [.comma].intercalate parts := by
  induction parts with
  | nil => simp
  | cons p ps ih =>
    have first := each p List.mem_cons_self
    have rest := ih fun q member => each q (List.mem_cons_of_mem _ member)
    cases ps with
    | nil => rwa [List.intercalate_singleton]
    | cons q ps =>
      rw [List.intercalate_cons_cons]
      simp [first, rest, other]

theorem broken_not_mem_enclose {opening closing : Token} {parts : List (List Token)}
    (opens : opening ≠ .broken) (closes : closing ≠ .broken)
    (each : ∀ ts ∈ parts, .broken ∉ ts) : .broken ∉ enclose opening .comma closing parts := by
  have inside := not_mem_intercalate (by decide : Token.broken ≠ .comma) each
  simp [enclose, inside, opens.symm, closes.symm]

theorem IsValue.sound {ts : List Token} (value : IsValue ts) : .broken ∉ ts := by
  induction value with
  | null | bool | num | str => simp
  | arr parts each ih => exact broken_not_mem_enclose nofun nofun ih
  | obj members each ih =>
    refine broken_not_mem_enclose nofun nofun fun ts member => ?_
    obtain ⟨m, among, rfl⟩ := List.mem_map.mp member
    simp [Entry.tokens, ih m among]

section Skip

variable {f : Frame} {fs : List Frame} {rest : List Token}

theorem skip_comma (f : Frame) (fs : List Frame) (ts : List Token) :
    skip .next (f :: fs) (.comma :: ts) = skip f.due (f :: fs) ts := by
  simp [skip]

theorem skip_close (f : Frame) (fs : List Frame) (ts : List Token) :
    skip .next (f :: fs) (f.close :: ts) = skip .next fs ts := by
  cases f <;> simp [skip, Frame.close]

theorem skip_parts {p : List Token} {ps : List (List Token)}
    (each : ∀ ts ∈ p :: ps, ∀ rest, skip f.due (f :: fs) (ts ++ rest) = skip .next (f :: fs) rest) :
    skip f.due (f :: fs) ([.comma].intercalate (p :: ps) ++ f.close :: rest) =
      skip .next fs rest := by
  induction ps generalizing p with
  | nil => rw [List.intercalate_singleton, each p List.mem_cons_self, skip_close]
  | cons q ps ih =>
    rw [List.intercalate_cons_cons, List.append_assoc, List.append_assoc,
      each p List.mem_cons_self, List.singleton_append, skip_comma]
    exact ih fun ts member => each ts (List.mem_cons_of_mem _ member)

theorem skip_firstItem {ts : List Token} (value : IsValue ts) :
    skip .firstItem fs (ts ++ rest) = skip .value fs (ts ++ rest) := by
  cases value <;> cases fs <;> simp [enclose, skip]

theorem skip_entry (m : Entry) (due : Due) (member : due = .member ∨ due = .firstMember) :
    skip due fs (m.tokens ++ rest) = skip .value fs (m.2 ++ rest) := by
  rcases member with rfl | rfl <;> simp [Entry.tokens, skip]

theorem skip_value {ts : List Token} (value : IsValue ts) (fs : List Frame) (rest : List Token) :
    skip .value fs (ts ++ rest) = skip .next fs rest := by
  induction value generalizing fs rest with
  | null | bool | num | str => simp [skip]
  | arr parts each ih =>
    have opened : skip .value fs (enclose .lbracket .comma .rbracket parts ++ rest) =
        skip .firstItem (.array :: fs) ([.comma].intercalate parts ++ .rbracket :: rest) := by
      simp [enclose, skip]
    rw [opened]
    cases parts with
    | nil => simp [skip]
    | cons p ps =>
      have first : skip .firstItem (.array :: fs)
          ([.comma].intercalate (p :: ps) ++ .rbracket :: rest) =
            skip .value (.array :: fs) ([.comma].intercalate (p :: ps) ++ .rbracket :: rest) := by
        obtain ⟨more, split⟩ := exists_intercalate [.comma] p ps (.rbracket :: rest)
        rw [split, skip_firstItem (each p List.mem_cons_self)]
      rw [first]
      exact skip_parts (f := .array) fun ts member rest => ih ts member _ rest
  | obj members each ih =>
    have opened : skip .value fs
        (enclose .lbrace .comma .rbrace (members.map Entry.tokens) ++ rest) =
          skip .firstMember (.object :: fs)
            ([.comma].intercalate (members.map Entry.tokens) ++ .rbrace :: rest) := by
      simp [enclose, skip]
    rw [opened]
    cases members with
    | nil => simp [skip]
    | cons m ms =>
      have first : skip .firstMember (.object :: fs)
          ([.comma].intercalate (m.tokens :: ms.map Entry.tokens) ++ .rbrace :: rest) =
            skip .member (.object :: fs)
              ([.comma].intercalate (m.tokens :: ms.map Entry.tokens) ++ .rbrace :: rest) := by
        obtain ⟨more, split⟩ :=
          exists_intercalate [.comma] m.tokens (ms.map Entry.tokens) (.rbrace :: rest)
        rw [split, skip_entry m _ (.inr rfl), skip_entry m _ (.inl rfl)]
      rw [List.map_cons, first]
      refine skip_parts (f := .object) fun ts member rest => ?_
      obtain ⟨m', among, rfl⟩ := List.mem_map.mp (List.map_cons ▸ member)
      rw [Frame.due, skip_entry m' _ (.inl rfl)]
      exact ih m' among _ rest

end Skip

def Gives {α : Type} (read : Reader α) (ts : List Token) (x : Except TextFault α) : Prop :=
  ∀ rest, read (ts ++ rest) = x.map fun a => (a, rest)

def alone {α : Type} (read : Reader α) (ts : List Token) : Except TextFault α :=
  (read ts).map Prod.fst

theorem Gives.alone_eq {α : Type} {read : Reader α} {ts : List Token} {x : Except TextFault α}
    (gives : Gives read ts x) : alone read ts = x := by
  have whole := gives []
  rw [List.append_nil] at whole
  rw [alone, whole]
  cases x <;> rfl

section Items

variable {ι σ : Type} {close : Token} {item : σ → Reader σ} {tokens : ι → List Token}
  {step : ι → σ → Except TextFault σ}

theorem gives_itemsFrom (mark : close ≠ .comma) {p : ι} {ps : List ι}
    (each : ∀ q ∈ p :: ps, ∀ s, Gives (item s) (tokens q) (step q s)) (s : σ) {n : Nat}
    (enough : ps.length < n) :
    Gives (itemsFrom close item n s) ([.comma].intercalate ((p :: ps).map tokens) ++ [close])
      ((p :: ps).foldlM (fun s q => step q s) s) := by
  intro rest
  induction ps generalizing p s n with
  | nil =>
    obtain ⟨n, rfl⟩ : ∃ m, n = m + 1 := ⟨n - 1, by omega⟩
    rw [List.map_singleton, List.intercalate_singleton, List.append_assoc, itemsFrom,
      each p List.mem_cons_self s, List.foldlM_cons]
    cases step p s with
    | error e => rfl
    | ok s' => simp [Except.map, bind, Except.bind, pure, Except.pure]
  | cons q ps ih =>
    obtain ⟨n, rfl⟩ : ∃ m, n = m + 1 := ⟨n - 1, by omega⟩
    rw [List.map_cons, List.map_cons, List.intercalate_cons_cons, List.append_assoc,
      List.append_assoc, List.append_assoc, itemsFrom, each p List.mem_cons_self s,
      List.foldlM_cons]
    cases step p s with
    | error e => rfl
    | ok s' =>
      have rest' := ih (fun q' member => each q' (List.mem_cons_of_mem _ member)) s'
        (n := n) (by simpa using enough)
      rw [List.append_assoc] at rest'
      exact rest'

theorem length_le_intercalate (close : Token) (parts : List (List Token)) :
    parts.length ≤ ([.comma].intercalate parts ++ [close]).length := by
  induction parts with
  | nil => simp
  | cons p ps ih =>
    cases ps with
    | nil => simp [List.intercalate_singleton]
    | cons q ps =>
      rw [List.intercalate_cons_cons]
      simp only [List.length_append, List.length_cons, List.length_nil] at ih ⊢
      omega

theorem gives_items (close : Token) (tokens : ι → List Token) (mark : close ≠ .comma) {parts : List ι}
    (first : ∀ q ∈ parts, ∃ t r, tokens q = t :: r ∧ t ≠ close)
    (each : ∀ q ∈ parts, ∀ s, Gives (item s) (tokens q) (step q s)) (s : σ) :
    Gives (items close item s) ([.comma].intercalate (parts.map tokens) ++ [close])
      (parts.foldlM (fun s q => step q s) s) := by
  intro rest
  cases parts with
  | nil => simp [items, Except.map, pure, Except.pure]
  | cons p ps =>
    obtain ⟨t, r, begun, other⟩ := first p List.mem_cons_self
    obtain ⟨more, split⟩ :=
      exists_intercalate [.comma] (tokens p) (ps.map tokens) ([close] ++ rest)
    rw [← List.append_assoc, begun, ← begun, ← List.map_cons] at split
    have given := gives_itemsFrom mark each s
      (n := ([.comma].intercalate ((p :: ps).map tokens) ++ [close] ++ rest).length)
      (by
        have bound := length_le_intercalate close ((p :: ps).map tokens)
        simp only [List.length_append, List.length_cons, List.length_map] at bound ⊢
        omega) rest
    rw [split, begun] at given ⊢
    rw [List.cons_append, items, if_neg other]
    exact given

end Items

section Read

variable {depth : Nat}

theorem Gives.map {α β : Type} {read : Reader α} {ts : List Token} {x : Except TextFault α}
    (gives : Gives read ts x) (f : α → β) :
    Gives (fun ts => (read ts).map fun q => (f q.1, q.2)) ts (x.map f) := by
  intro rest
  simp only [gives rest]
  cases x <;> rfl

theorem exists_of_begins {ts : List Token} (value : IsValue ts) {close : Token}
    (other : begins close = false) : ∃ t r, ts = t :: r ∧ t ≠ close := by
  obtain ⟨t, r, rfl, first⟩ := value.exists_cons
  refine ⟨t, r, rfl, ?_⟩
  rintro rfl
  rw [first] at other
  cases other

def addItem (depth : Nat) (p : List Token) (xs : List Json) : Except TextFault (List Json) :=
  (alone (read depth) p).map (· :: xs)

def addMember (depth : Nat) (m : Entry) (ms : Members) : Except TextFault Members :=
  match Piece.text m.1 with
  | some k => (alone (read depth) m.2).map fun v => ms.put k v
  | none => .error .malformed

def membersOf (depth : Nat) (ms : List Entry) : Except TextFault Members :=
  ms.foldlM (fun object m => addMember depth m object) []

theorem gives_array {parts : List (List Token)} (values : ∀ p ∈ parts, IsValue p)
    (each : ∀ p ∈ parts, ∃ x, Gives (read depth) p x) :
    Gives (read (depth + 1)) (enclose .lbracket .comma .rbracket parts)
      ((parts.foldlM (fun xs p => addItem depth p xs) []).map fun xs => .arr xs.reverse) := by
  have items : Gives (items .rbracket (element (read depth)) [])
      ([.comma].intercalate (parts.map id) ++ [.rbracket])
      (parts.foldlM (fun xs p => addItem depth p xs) []) := by
    refine gives_items .rbracket id nofun (fun p member => exists_of_begins (values p member) rfl) ?_ []
    intro p member xs rest
    obtain ⟨x, gives⟩ := each p member
    rw [addItem, gives.alone_eq, element, id, gives rest]
    cases x <;> rfl
  intro rest
  rw [List.map_id] at items
  rw [enclose, List.cons_append, read, items rest]
  cases parts.foldlM (fun xs p => addItem depth p xs) [] <;> rfl

theorem gives_members {members : List Entry}
    (each : ∀ m ∈ members, ∃ x, Gives (read depth) m.2 x) :
    Gives (readObject depth) ([.comma].intercalate (members.map Entry.tokens) ++ [.rbrace])
      (membersOf depth members) := by
  have step (m : Entry) (among : m ∈ members) (ms : Members) :
      Gives (member (read depth) ms) m.tokens (addMember depth m ms) := by
    obtain ⟨x, gives⟩ := each m among
    intro rest
    rw [addMember, gives.alone_eq]
    simp only [Entry.tokens, List.cons_append, member, key]
    cases Piece.text m.1 with
    | none => rfl
    | some k =>
      simp only [bind, Except.bind, colon, gives rest]
      cases x <;> rfl
  exact gives_items .rbrace Entry.tokens (by simp) (fun m _ => ⟨_, _, rfl, by simp⟩) step []

theorem gives_object {members : List Entry}
    (each : ∀ m ∈ members, ∃ x, Gives (read depth) m.2 x) :
    Gives (read (depth + 1)) (enclose .lbrace .comma .rbrace (members.map Entry.tokens))
      ((membersOf depth members).map .obj) := by
  intro rest
  have items := gives_members each rest
  rw [readObject] at items
  rw [enclose, List.cons_append, read, items]
  cases membersOf depth members <;> rfl

def scalarOf (t : Token) : Except TextFault Json :=
  match scalar t with
  | some v => .ok v
  | none => .error .malformed

theorem gives_scalar {t : Token} (array : t ≠ .lbracket) (object : t ≠ .lbrace) :
    Gives (read depth) [t] (scalarOf t) := by
  intro rest
  have opened : read depth (t :: rest) =
      match scalar t with
      | some v => .ok (v, rest)
      | none => .error .malformed := by
    cases t with
    | lbracket => exact absurd rfl array
    | lbrace => exact absurd rfl object
    | _ => cases depth <;> rfl
  rw [List.singleton_append, opened, scalarOf]
  cases scalar t <;> rfl

theorem exists_gives {ts : List Token} (value : IsValue ts) (depth : Nat) :
    ∃ x, Gives (read depth) ts x := by
  induction value generalizing depth with
  | null => exact ⟨_, gives_scalar nofun nofun⟩
  | bool b => exact ⟨_, gives_scalar nofun nofun⟩
  | num n => exact ⟨_, gives_scalar nofun nofun⟩
  | str ps => exact ⟨_, gives_scalar nofun nofun⟩
  | arr parts each ih =>
    cases depth with
    | zero => exact ⟨.error .malformed, fun rest => rfl⟩
    | succ depth => exact ⟨_, gives_array each fun p member => ih p member depth⟩
  | obj members each ih =>
    cases depth with
    | zero => exact ⟨.error .malformed, fun rest => rfl⟩
    | succ depth => exact ⟨_, gives_object fun m member => ih m member depth⟩

end Read

end Json

end SupervisorApi
